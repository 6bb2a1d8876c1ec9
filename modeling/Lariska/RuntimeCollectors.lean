import Lariska.Collectors
import Lariska.RuntimeMetadata

/-!
# The collectors of runtime packages

A file system answers each query for itself: what is there may be found, not
found or not be answered for. The collectors walk the directories they are
given one level down, two for the scopes of Node.js, and note what they cannot
read, except that `exists` does not tell an error from an absence.
-/

namespace Lariska

/-! ## File systems -/

inductive Node where
  | file (content : Bytes)
  /-- A directory, its names in the order they are enumerated. -/
  | dir (names : List Bytes)
  | other
deriving DecidableEq

inductive Query where
  | stat
  | readDir
  /-- The enumeration of a directory, at one of its entries. -/
  | entry
  | read
deriving DecidableEq

structure FileSystem where
  /-- What is at a path, symbolic links followed. -/
  node : Path → Option Node
  /-- A query that fails, for another reason than that there is nothing. -/
  denied : Query → Path → Bool
  canonicalize : Path → Option Path

/-- An answer: an error, or what there is. -/
abbrev Found (α : Type) := Except Unit (Option α)

namespace FileSystem

variable (fs : FileSystem)

/-- `fs::metadata`. -/
def metadata (path : Path) : Found Node :=
  if fs.denied .stat path then .error () else .ok (fs.node path)

/-- `Path::exists`. -/
def pathExists (path : Path) : Bool :=
  match fs.metadata path with
  | .ok (some _) => true
  | _ => false

/-- `fs::read_dir`. -/
def readDir (path : Path) : Found (List Bytes) :=
  if fs.denied .readDir path then .error ()
  else match fs.node path with
    | none => .ok none
    | some (.dir names) => .ok (some names)
    | some _ => .error ()

end FileSystem

def maxMetadataFileBytes : Nat := 512 * 1024

section Collectors

variable (L : Libraries) (D : Decoders) (fs : FileSystem)

/-- `read_text_file_limited`. -/
def readTextFileLimited (path : Path) : Option String :=
  if fs.denied .read path then none
  else match fs.node path with
    | some (.file content) =>
      if content.length > maxMetadataFileBytes then none else some (D.fromUtf8Lossy content)
    | _ => none

/-- The bound of `child_dirs`. -/
def maxChildDirs : Nat := 100000

/-- The loop of `child_dirs`. -/
def childDirsLoop (path : Path) :
    List Bytes → List Path → CollectorResult → List Path × CollectorResult
  | [], dirs, result => (dirs, result)
  | name :: names, dirs, result =>
    if dirs.length ≥ maxChildDirs then (dirs, result.markFailed "collection_limit_exceeded")
    else
      let child := path ++ [name]
      if fs.denied .entry child then
        childDirsLoop path names dirs (result.markFailed "directory_unreadable")
      else match fs.metadata child with
        | .ok (some (.dir _)) => childDirsLoop path names (dirs ++ [child]) result
        -- another file, or a dangling link
        | .ok _ => childDirsLoop path names dirs result
        | .error _ => childDirsLoop path names dirs (result.markFailed "directory_unreadable")

def childDirs (path : Path) (result : CollectorResult) : List Path × CollectorResult :=
  match fs.readDir path with
  | .ok none => ([], result)
  | .error _ => ([], result.markFailed "directory_unreadable")
  | .ok (some names) =>
    let (dirs, result) := childDirsLoop fs path names [] result
    (dirs.insertionSort fun a b => a ≤ b, result)

/-- An entry, or none where its metadata cannot be read. -/
def CollectorResult.push (result : CollectorResult) : Option SoftwareEntry → CollectorResult
  | some entry => { result with entries := result.entries ++ [entry] }
  | none => result.markFailed "metadata_unreadable"

/-! ### Python -/

/-- The directory of a distribution. -/
def isDistInfo (path : Path) : Bool := path.extension == some (Json.bytes "dist-info")

/-- What is read of one. -/
def readDistInfo (path : Path) : Option SoftwareEntry :=
  (readTextFileLimited D fs (path.join ["METADATA"])).bind fun content =>
    parsePythonMetadata L D fs.canonicalize content path

/-- `collect_python_dirs`, at a time. -/
def collectPythonDirs (now : String) (dirs : List Path) : CollectorResult :=
  let result := dirs.foldl (fun result dir =>
    let (paths, result) := childDirs fs dir result
    paths.foldl (fun result path =>
      if ¬isDistInfo path then result else result.push (readDistInfo L D fs path)) result)
    CollectorResult.empty
  if dirs = [] ∧ result.complete then .notApplicable now .pip else result.withSource now .pip

/-! ### Node.js -/

/-- What is read of a package. -/
def readPackage (path : Path) : Option SoftwareEntry :=
  (readTextFileLimited D fs (path.join ["package.json"])).bind fun content =>
    parsePackageJson L D fs.canonicalize content path

/-- `collect_nodejs_dirs`, at a time. -/
def collectNodejsDirs (now : String) (dirs : List Path) : CollectorResult :=
  let result := dirs.foldl (fun result dir =>
    let (paths, result) := childDirs fs dir result
    paths.foldl (fun result path =>
      let (packages, result) :=
        if path.isScope then childDirs fs path result else ([path], result)
      packages.foldl (fun result package => result.push (readPackage L D fs package)) result)
      result)
    CollectorResult.empty
  if dirs.any fs.pathExists = false ∧ result.complete then .notApplicable now .npm
  else result.withSource now .npm

/-! ### Java -/

/-- The release file that is read. -/
def releaseFile (path : Path) : Path :=
  let bundleRelease := path.join ["Contents", "Home", "release"]
  if fs.pathExists bundleRelease then bundleRelease else path.join ["release"]

/-- The directory is taken for a Java runtime. -/
def apparent (path : Path) : Bool :=
  fs.pathExists (releaseFile fs path) || fs.pathExists (path.join ["bin", "java"])
    || fs.pathExists (path.join ["bin", "java.exe"])

/-- What is read of one. -/
def readRuntime (path : Path) : Option SoftwareEntry :=
  (readTextFileLimited D fs (releaseFile fs path)).bind fun content =>
    parseJavaRelease L D fs.canonicalize content path

/-- `collect_java_dirs`, at a time. -/
def collectJavaDirs (now : String) (dirs : List Path) : CollectorResult :=
  let result := dirs.foldl (fun result parent =>
    let (paths, result) := childDirs fs parent result
    paths.foldl (fun result path =>
      if ¬apparent fs path then result else result.push (readRuntime L D fs path)) result)
    CollectorResult.empty
  if dirs.any fs.pathExists = false ∧ result.complete then .notApplicable now .java
  else result.withSource now .java

end Collectors

end Lariska
