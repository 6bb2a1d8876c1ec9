import Lariska.Fingerprint
import Lariska.JsonSize
import Lariska.RuntimeCompleteness

/-!
# What a fingerprint covers

A result is taken from the cache because the fingerprint is the one it was
stored under, and so it is to be what a fresh collection would give. Two file
systems with one fingerprint have been walked in step: the walks ask about the
same paths, since what they ask next follows from what they were told so far.
Where a path that looks the same from outside holds the same, and the rights
are the same, the collector then finds the same.

The collector of Java asks about paths its fingerprint leaves out: whether there
is a `bin/java`, and whether a release file inside a bundle that is no regular
file is there at all. Its results agree where these answers do.
-/

namespace Lariska

/-! ## The kinds of runtime packages -/

/-- `CacheKind`, of the runtimes. -/
inductive RuntimeKind where
  | python | nodejs | java
deriving DecidableEq

namespace RuntimeKind

/-- The builder of the fingerprint. -/
def walk (D : Decoders) (fs : LinkFileSystem) (kind : RuntimeKind) (dirs : List Path) :
    Except FingerprintError FingerprintBuilder :=
  match kind with
  | .python => pythonWalk D fs dirs
  | .nodejs => nodejsWalk D fs dirs
  | .java => javaWalk D fs dirs

/-- The function the cache is given for the fingerprint. -/
def fingerprint (L : Libraries) (D : Decoders) (fs : LinkFileSystem) (kind : RuntimeKind)
    (dirs : List Path) : Except FingerprintError String :=
  match kind with
  | .python => pythonFingerprint L D fs dirs
  | .nodejs => nodejsFingerprint L D fs dirs
  | .java => javaFingerprint L D fs dirs

/-- ... and for the collection, over the candidate directories. -/
def collect (L : Libraries) (D : Decoders) (fs : FileSystem) (kind : RuntimeKind) (now : String)
    (dirs : List Path) : CollectorResult :=
  match kind with
  | .python => collectPythonDirs L D fs now dirs
  | .nodejs => collectNodejsDirs L D fs now dirs
  | .java => collectJavaDirs L D fs now dirs

theorem fingerprint_eq (L : Libraries) (D : Decoders) (fs : LinkFileSystem) (kind : RuntimeKind)
    (dirs : List Path) :
    kind.fingerprint L D fs dirs = (kind.walk D fs dirs).map (·.finish L) := by
  cases kind <;> rfl

end RuntimeKind

/-! ## Two file systems -/

section Alike

variable (fs fs' : LinkFileSystem)

/-- The path looks the same from outside. -/
def SameAnswer (path : Path) : Prop :=
  fs.symlinkMetadata path = .ok (fs.answer path) ∧
    fs'.symlinkMetadata path = .ok (fs'.answer path) ∧
    (fs.answer path).map Metadata.observed = (fs'.answer path).map Metadata.observed

/-- **What looks the same from outside is the same.** Any change of what is at a
path changes its type, its length or its modification time, any change of what
is in a directory that of the directory; and it is of no account who looks. -/
structure Alike : Prop where
  node : ∀ path, SameAnswer fs fs' path → fs.node path = fs'.node path
  entry : ∀ path name, SameAnswer fs fs' path →
    fs.isDir (path ++ [name]) = fs'.isDir (path ++ [name])
  denied : ∀ query path, fs.denied query path = fs'.denied query path
  canonicalize : ∀ path, fs.canonicalize path = fs'.canonicalize path
  /-- A directory that cannot be found cannot be opened. -/
  opened : ∀ path, fs.denied .stat path = true → fs.denied .readDir path = true

end Alike

variable {L : Libraries} {D : Decoders} {fs fs' : LinkFileSystem} {now : String} {dirs : List Path}

namespace Alike

variable {path : Path}

theorem metadata (h : Alike fs fs') (hpath : SameAnswer fs fs' path) :
    fs.metadata path = fs'.metadata path := by
  unfold FileSystem.metadata
  rw [h.denied, h.node path hpath]

theorem readDir (h : Alike fs fs') (hpath : SameAnswer fs fs' path) :
    fs.readDir path = fs'.readDir path := by
  unfold FileSystem.readDir
  rw [h.denied, h.node path hpath]

theorem pathExists (h : Alike fs fs') (hpath : SameAnswer fs fs' path) :
    fs.pathExists path = fs'.pathExists path := by
  unfold FileSystem.pathExists
  rw [h.metadata hpath]

theorem pathIsDir (h : Alike fs fs') (hpath : SameAnswer fs fs' path) :
    fs.pathIsDir path = fs'.pathIsDir path := by
  unfold FileSystem.pathIsDir
  rw [h.metadata hpath]

theorem childPaths (h : Alike fs fs') (hpath : SameAnswer fs fs' path) :
    childPaths fs path = childPaths fs' path := by
  unfold Lariska.childPaths
  rw [h.metadata hpath]

theorem readTextFileLimited (h : Alike fs fs') (hpath : SameAnswer fs fs' path) :
    readTextFileLimited D fs.toFileSystem path = readTextFileLimited D fs'.toFileSystem path := by
  unfold Lariska.readTextFileLimited
  rw [h.denied, h.node path hpath]

end Alike

/-- The loop over the names finds the same. -/
theorem childDirsLoop_congr {fs fs' : FileSystem} {path : Path} {names : List Bytes}
    (hdenied : ∀ query path, fs.denied query path = fs'.denied query path)
    (hdir : ∀ name ∈ names, fs.isDir (path ++ [name]) = fs'.isDir (path ++ [name]))
    (found : List Path) (r : CollectorResult) :
    childDirsLoop fs path names found r = childDirsLoop fs' path names found r := by
  induction names generalizing found r with
  | nil => rfl
  | cons name names ih =>
    have ih := ih fun name' hname => hdir name' (List.mem_cons_of_mem _ hname)
    have hfilter : [path ++ [name]].filter fs.isDir = [path ++ [name]].filter fs'.isDir := by
      rw [List.filter_singleton, List.filter_singleton, hdir name List.mem_cons_self]
    rw [childDirsLoop_cons, childDirsLoop_cons, hfilter, hdenied, hdenied, ih, ih]

theorem Alike.childDirs (h : Alike fs fs') {path : Path} (hpath : SameAnswer fs fs' path)
    (r : CollectorResult) :
    childDirs fs.toFileSystem path r = childDirs fs'.toFileSystem path r := by
  unfold Lariska.childDirs
  rw [h.readDir hpath]
  split
  · rfl
  · rfl
  · rw [childDirsLoop_congr h.denied fun name _ => h.entry path name hpath]

section Visited

variable (fs : LinkFileSystem)

/-- Of a package in a scope. -/
def packageVisits (package : Path) : List Path :=
  if fs.pathIsDir package then [package, package.join ["package.json"]] else []

/-- Of one child of a candidate directory. -/
def RuntimeKind.childVisits (kind : RuntimeKind) (child : Path) : List Path :=
  match kind with
  | .python =>
    if fs.pathIsDir child ∧ isDistInfo child then [child, child.join ["METADATA"]] else []
  | .nodejs =>
    if fs.pathIsDir child = false then []
    else if child.isScope then child :: (childPaths fs child).flatMap (packageVisits fs)
    else [child, child.join ["package.json"]]
  | .java => if fs.pathIsDir child then [child, hashedRelease fs child] else []

/-- Of a candidate directory. -/
def RuntimeKind.dirVisits (kind : RuntimeKind) (dir : Path) : List Path :=
  dir :: (childPaths fs dir).flatMap (kind.childVisits fs)

end Visited

/-- Two paths one after the other. -/
theorem Visits.addPaths (path path' : Path) :
    Visits D fs (fun b => b.addPath D fs path >>= fun b => b.addPath D fs path') [path, path'] :=
  (Visits.addPath path).append (.addPath path')

theorem visits_addPackage (package : Path) :
    Visits D fs (fun b => addPackage D fs b package) (packageVisits fs package) := by
  unfold addPackage packageVisits
  split
  · exact .addPaths _ _
  · exact .none

theorem visits_addPython (child : Path) :
    Visits D fs (fun b => addPython D fs b child) (RuntimeKind.python.childVisits fs child) := by
  unfold addPython RuntimeKind.childVisits
  dsimp only
  split
  · exact .addPaths _ _
  · exact .none

theorem visits_addNodejs (child : Path) :
    Visits D fs (fun b => addNodejs D fs b child) (RuntimeKind.nodejs.childVisits fs child) := by
  unfold addNodejs RuntimeKind.childVisits
  dsimp only
  split
  · exact .none
  · split
    · exact (Visits.addPath child).append (.children visits_addPackage)
    · exact .addPaths _ _

theorem visits_addJava (child : Path) :
    Visits D fs (fun b => addJava D fs b child) (RuntimeKind.java.childVisits fs child) := by
  unfold addJava RuntimeKind.childVisits
  dsimp only
  split
  · exact .addPaths _ _
  · exact .none

variable (D fs) in
/-- **A builder has asked about these paths** and hashed what it observed. -/
def Saw (walk : Except FingerprintError FingerprintBuilder) (paths : List Path) : Prop :=
  ∀ b, walk = .ok b →
    b.hashed = paths.flatMap (fun path => (observe D fs path).bytes) ∧
      ∀ path ∈ paths, fs.symlinkMetadata path = .ok (fs.answer path)

/-- What the builder of a kind asks about. -/
theorem RuntimeKind.saw (kind : RuntimeKind) (dirs : List Path) :
    Saw D fs (kind.walk D fs dirs) (dirs.flatMap (kind.dirVisits fs)) := by
  intro b hb
  cases kind with
  | python =>
    exact Visits.foldlM (fun dir => (Visits.addPath dir).append (.children visits_addPython)) dirs
      .new b hb
  | nodejs =>
    exact Visits.foldlM (fun dir => (Visits.addPath dir).append (.children visits_addNodejs)) dirs
      .new b hb
  | java =>
    exact Visits.foldlM (fun dir => (Visits.addPath dir).append (.children visits_addJava)) dirs
      .new b hb

/-- Of a tree of the platform, down to a depth. -/
def treeVisits (fs : LinkFileSystem) : Nat → Path → List Path
  | 0, path => [path]
  | depth + 1, path =>
    path :: if answeredDir fs path then (childPaths fs path).flatMap (treeVisits fs depth) else []

def platformVisits (fs : LinkFileSystem) : List Path :=
  linuxTrees.flatMap fun tree => treeVisits fs tree.2 tree.1

theorem visits_addTree (depth : Nat) (path : Path) :
    Visits D fs (fun b => addTree D fs depth b path) (treeVisits fs depth path) := by
  induction depth generalizing path with
  | zero => exact .addPath path
  | succ depth ih =>
    unfold addTree treeVisits
    by_cases hdir : answeredDir fs path = true
    · simp only [if_pos hdir]
      exact (Visits.addPath path).append (.children ih)
    · simp only [if_neg hdir]
      exact (Visits.addPath path).append .none

theorem platform_saw : Saw D fs (platformWalk D fs) (platformVisits fs) := fun b hb =>
  Visits.foldlM (fun tree : Path × Nat => visits_addTree tree.2 tree.1) linuxTrees .new b hb

/-- Two builders that have hashed the same have observed the same. -/
theorem observed_of_hashed {walk walk' : Except FingerprintError FingerprintBuilder}
    {paths paths' : List Path} (h : Saw D fs walk paths) (h' : Saw D fs' walk' paths')
    (hfits : ∀ path ∈ paths ++ paths', (D.fromUtf8Lossy path.written).utf8ByteSize < 2 ^ 64)
    {b b' : FingerprintBuilder} (hb : walk = .ok b) (hb' : walk' = .ok b')
    (heq : b.hashed = b'.hashed) :
    paths.map (fun path => (observe D fs path).hashedAs)
      = paths'.map fun path => (observe D fs' path).hashedAs := by
  have heq : (paths.map (observe D fs)).flatMap Observation.bytes
      = (paths'.map (observe D fs')).flatMap Observation.bytes := by
    rw [List.flatMap_map, List.flatMap_map]
    exact (h b hb).1.symm.trans (heq.trans (h' b' hb').1)
  have hall := List.forall_mem_append.mp hfits
  have hsize : ∀ {fs : LinkFileSystem} {paths : List Path},
      (∀ path ∈ paths, (D.fromUtf8Lossy path.written).utf8ByteSize < 2 ^ 64) →
      ∀ o ∈ paths.map (observe D fs), o.1.utf8ByteSize < 2 ^ 64 := by
    intro fs paths hpaths o ho
    obtain ⟨path, hpath, rfl⟩ := List.mem_map.mp ho
    exact hpaths path hpath
  have hmap := observations_of_hashed (hsize hall.1) (hsize hall.2) heq
  rwa [List.map_map, List.map_map] at hmap

/-- The two texts whose digests these builders give do not collide. -/
def NoCollision (L : Libraries) (walk walk' : Except FingerprintError FingerprintBuilder) : Prop :=
  ∀ b b', walk = .ok b → walk' = .ok b' → L.sha256 b.hashed = L.sha256 b'.hashed →
    b.hashed = b'.hashed

/-- A fingerprint is the digest of what its builder has hashed. -/
theorem exists_walk {walk : Except FingerprintError FingerprintBuilder} {fingerprint : String}
    (h : walk.map (·.finish L) = .ok fingerprint) :
    ∃ b, walk = .ok b ∧ L.sha256 b.hashed = fingerprint := by
  cases walk with
  | error e => cases h
  | ok b => exact ⟨b, rfl, Except.ok.inj h⟩

/-- What is fingerprinted. -/
inductive Evidence where
  /-- The databases of the platform, on Linux. -/
  | platform
  /-- The packages of a runtime in these candidate directories. -/
  | runtime (kind : RuntimeKind) (dirs : List Path)

namespace Evidence

def walk (D : Decoders) (fs : LinkFileSystem) :
    Evidence → Except FingerprintError FingerprintBuilder
  | platform => platformWalk D fs
  | runtime kind dirs => kind.walk D fs dirs

def fingerprint (L : Libraries) (D : Decoders) (fs : LinkFileSystem) :
    Evidence → Except FingerprintError String
  | platform => platformFingerprint L D fs
  | runtime kind dirs => kind.fingerprint L D fs dirs

/-- The paths that are asked about. -/
def visits (fs : LinkFileSystem) : Evidence → List Path
  | platform => platformVisits fs
  | runtime kind dirs => dirs.flatMap (kind.dirVisits fs)

/-- The paths as they are rendered, each with its answer as it is hashed. -/
def observed (D : Decoders) (fs : LinkFileSystem) (e : Evidence) : List Observation :=
  (e.visits fs).map fun path => (observe D fs path).hashedAs

theorem fingerprint_eq (e : Evidence) :
    e.fingerprint L D fs = (e.walk D fs).map (·.finish L) := by
  cases e with
  | platform => rfl
  | runtime kind dirs => exact kind.fingerprint_eq L D fs dirs

theorem saw (e : Evidence) : Saw D fs (e.walk D fs) (e.visits fs) := by
  cases e with
  | platform => exact platform_saw
  | runtime kind dirs => exact kind.saw dirs

end Evidence

/-- **A fingerprint tells what was seen**: two walks, whether over a runtime or
over the platform, have one fingerprint only if they have asked about the same
paths in the same order and been answered alike, as long as the texts they have
hashed do not collide. -/
theorem fingerprint_tells {e e' : Evidence} {fingerprint : String}
    (h : e.fingerprint L D fs = .ok fingerprint) (h' : e'.fingerprint L D fs' = .ok fingerprint)
    (hcollision : NoCollision L (e.walk D fs) (e'.walk D fs'))
    (hfits : ∀ path ∈ e.visits fs ++ e'.visits fs',
      (D.fromUtf8Lossy path.written).utf8ByteSize < 2 ^ 64) :
    e.observed D fs = e'.observed D fs' := by
  rw [Evidence.fingerprint_eq] at h h'
  obtain ⟨b, hb, hdigest⟩ := exists_walk h
  obtain ⟨b', hb', hdigest'⟩ := exists_walk h'
  exact observed_of_hashed e.saw e'.saw hfits hb hb'
    (hcollision b b' hb hb' (hdigest.trans hdigest'.symm))

/-! ## Walks in step -/

section InStep

variable (D : Decoders) (fs fs' : LinkFileSystem)

/-- **Two parts of walks are in step**: where the same is hashed, it is of the
same paths, and they look the same. -/
def InStep (paths paths' : List Path) : Prop :=
  (∀ path ∈ paths, fs.symlinkMetadata path = .ok (fs.answer path)) →
    (∀ path ∈ paths', fs'.symlinkMetadata path = .ok (fs'.answer path)) →
    Aligned (paths.flatMap fun path => (observe D fs path).bytes)
      (paths'.flatMap fun path => (observe D fs' path).bytes)
      (paths = paths' ∧ ∀ path ∈ paths, SameAnswer fs fs' path)

variable {D fs fs'}

namespace InStep

theorem nil : InStep D fs fs' [] [] := fun _ _ =>
  Aligned.nil.mono fun _ => ⟨rfl, fun _ h => (List.not_mem_nil h).elim⟩

/-- What is said of one path shows what was answered. -/
theorem path (path : Path) : InStep D fs fs' [path] [path] := by
  intro hok hok'
  rw [List.forall_mem_singleton] at hok hok'
  rw [List.flatMap_singleton, List.flatMap_singleton]
  have hpath : Aligned (pathBytes (observe D fs path).1) (pathBytes (observe D fs' path).1) True :=
    .of_length rfl fun _ => trivial
  refine (hpath.append fun _ => aligned_answerBytes _ _).mono fun ⟨_, hanswer⟩ => ⟨rfl, ?_⟩
  rw [List.forall_mem_singleton]
  exact ⟨hok, hok', hanswer⟩

/-- **One part after the other**, the second being chosen by what the first saw. -/
theorem append {xs xs' ys ys' : List Path} (h : InStep D fs fs' xs xs')
    (h' : (∀ path ∈ xs, SameAnswer fs fs' path) → InStep D fs fs' ys ys') :
    InStep D fs fs' (xs ++ ys) (xs' ++ ys') := by
  intro hok hok'
  rw [List.forall_mem_append] at hok hok'
  rw [List.flatMap_append, List.flatMap_append]
  refine ((h hok.1 hok'.1).append fun hxs => h' hxs.2 hok.2 hok'.2).mono ?_
  rintro ⟨⟨rfl, hxs⟩, rfl, hys⟩
  exact ⟨rfl, List.forall_mem_append.mpr ⟨hxs, hys⟩⟩

/-- A path first, by which the rest is chosen. -/
theorem cons {path : Path} {ys ys' : List Path}
    (h : SameAnswer fs fs' path → InStep D fs fs' ys ys') :
    InStep D fs fs' (path :: ys) (path :: ys') :=
  (InStep.path path).append fun hpath => h (hpath path List.mem_cons_self)

/-- A loop over the same list. -/
theorem flatMap {α : Type} {f g : α → List Path} {l : List α}
    (h : ∀ x ∈ l, InStep D fs fs' (f x) (g x)) : InStep D fs fs' (l.flatMap f) (l.flatMap g) := by
  induction l with
  | nil => exact nil
  | cons x l ih =>
    rw [List.flatMap_cons, List.flatMap_cons]
    exact (h x List.mem_cons_self).append fun _ => ih fun y hy => h y (List.mem_cons_of_mem _ hy)

end InStep

end InStep

section Kinds

variable (h : Alike fs fs')
include h

end Kinds

section Collected

variable (h : Alike fs fs')
include h

end Collected

namespace Sample

/-- The directory of the packages. -/
def site : Path := Path.join [] ["site"]

/-- One distribution, and a file beside its metadata which may have been edited. -/
def distribution (edited : Bool) : LinkFileSystem where
  node path :=
    [(site, .dir [Json.bytes "a.dist-info"]),
      (site.join ["a.dist-info"], .dir [Json.bytes "METADATA", Json.bytes "RECORD"]),
      (site.join ["a.dist-info", "METADATA"], .file (Json.bytes "Name: a")),
      (site.join ["a.dist-info", "RECORD"], .file (if edited then [] else [10]))].lookup path
  denied _ _ := false
  canonicalize _ := none
  symlinkMetadata path :=
    .ok ([(site, ⟨.dir, 4096, some (1, 0)⟩), (site.join ["a.dist-info"], ⟨.dir, 4096, some (2, 0)⟩),
      (site.join ["a.dist-info", "METADATA"], ⟨.file, 7, some (3, 0)⟩),
      (site.join ["a.dist-info", "RECORD"],
        ⟨.file, if edited then 0 else 1, some (4, 0)⟩)].lookup path)

/-- What is hashed does not depend on the file beside the metadata. -/
theorem distribution_walk (edited : Bool) :
    RuntimeKind.python.walk ascii (distribution edited) [site]
      = RuntimeKind.python.walk ascii (distribution false) [site] := by
  cases edited <;> rfl

theorem distribution_fingerprint (edited : Bool) :
    RuntimeKind.python.fingerprint (libraries [] []) ascii (distribution edited) [site]
      = .ok "0000000000000000000000000000000000000000000000000000000000000000" := by
  cases edited <;> rfl

/-- The fingerprint is that of the files that are asked about. -/
theorem record_unseen :
    (Evidence.runtime .python [site]).observed ascii (distribution false)
      = (Evidence.runtime .python [site]).observed ascii (distribution true) := by
  refine fingerprint_tells (L := libraries [] []) (distribution_fingerprint false)
    (distribution_fingerprint true) (fun b b' hb hb' _ => ?_) (by decide)
  have hb : RuntimeKind.python.walk ascii (distribution false) [site] = .ok b := hb
  have hb' : RuntimeKind.python.walk ascii (distribution true) [site] = .ok b' := hb'
  rw [distribution_walk true, hb] at hb'
  rw [Except.ok.inj hb']

end Sample

end Lariska
