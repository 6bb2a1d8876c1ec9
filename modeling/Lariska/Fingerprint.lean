import Lariska.Aligned
import Lariska.JsonText
import Lariska.RuntimeCollectors

/-!
# The fingerprints of the runtime collectors

A collector's result is cached under a digest of what the places it looks at
look like from outside: of each path what `symlink_metadata` says of it, its
type, its length and its modification time, and that it is missing where it is.
The walk of a fingerprint is not that of its collector, and follows it only as
far as the two ask for the same paths.

What is hashed is one text, which says of each path in turn what was found
(`observations_of_hashed`): two walks with the same text have asked as many
questions, about the same paths, and got the same answers.
-/

namespace Lariska

/-! ## What is asked of a path -/

inductive FileType where
  | dir | file | symlink | other
deriving DecidableEq

/-- `fs::Metadata`, as far as it is hashed. -/
structure Metadata where
  fileType : FileType
  len : UInt64
  /-- The time since the epoch, in seconds and nanoseconds: the system may not
  know it, and it may be before. -/
  modified : Option (UInt64 × UInt32)
deriving DecidableEq

/-- A file system that is also asked about the links themselves. -/
structure LinkFileSystem extends FileSystem where
  symlinkMetadata : Path → Found Metadata

namespace FileSystem

variable (fs : FileSystem)

/-- `Path::is_dir`. -/
def pathIsDir (path : Path) : Bool :=
  match fs.metadata path with
  | .ok (some (.dir _)) => true
  | _ => false

/-- `Path::is_file`. -/
def pathIsFile (path : Path) : Bool :=
  match fs.metadata path with
  | .ok (some (.file _)) => true
  | _ => false

end FileSystem

/-! ## The builder -/

inductive FingerprintError where
  | exceeded
  | stat (path : Path)
  | read (path : Path)
  | enumerate (path : Path)
deriving DecidableEq

structure FingerprintBuilder where
  hashed : Bytes
  items : Nat

def maxFingerprintItems : Nat := 100000

def FileType.tag : FileType → UInt8
  | .dir => 1
  | .file => 2
  | .symlink => 3
  | .other => 4

/-- `hash_system_time`, and the twelve zeros of a time that is not known. -/
def hashSystemTime (modified : Option (UInt64 × UInt32)) : Bytes :=
  match modified with
  | some (secs, nanos) => littleEndian 8 secs.toNat ++ littleEndian 4 nanos.toNat
  | none => List.replicate 12 0

/-- What is hashed of an answer. -/
def answerBytes : Option Metadata → Bytes
  | none => [0]
  | some m => m.fileType.tag :: (littleEndian 8 m.len.toNat ++ hashSystemTime m.modified)

/-- What is hashed of a path. -/
def pathBytes (rendered : String) : Bytes :=
  littleEndian 8 rendered.utf8ByteSize ++ Json.bytes rendered

section Walks

variable (D : Decoders) (fs : LinkFileSystem)

namespace FingerprintBuilder

def new : FingerprintBuilder := ⟨[], 0⟩

/-- `add_path`, up to the answer whether it is a directory (`answeredDir`). -/
def addPath (b : FingerprintBuilder) (path : Path) : Except FingerprintError FingerprintBuilder :=
  if b.items + 1 > maxFingerprintItems then .error .exceeded
  else match fs.symlinkMetadata path with
    | .error _ => .error (.stat path)
    | .ok answer => .ok {
        hashed := b.hashed ++ (pathBytes (D.fromUtf8Lossy path.written) ++ answerBytes answer)
        items := b.items + 1 }

/-- `finish`. -/
def finish (L : Libraries) (b : FingerprintBuilder) : String := L.sha256 b.hashed

end FingerprintBuilder

/-- `sorted_children`. -/
def sortedChildren (path : Path) : Except FingerprintError (List Path) :=
  if fs.pathIsDir path = false then .ok []
  else match fs.readDir path with
    | .ok (some names) =>
      if names.any fun name => fs.denied .entry (path ++ [name]) then .error (.enumerate path)
      else .ok ((names.map fun name => path ++ [name]).insertionSort fun a b => a ≤ b)
    | _ => .error (.read path)

/-! ## The walks -/

/-- One child of a directory of Python packages. -/
def addPython (b : FingerprintBuilder) (path : Path) : Except FingerprintError FingerprintBuilder :=
  if fs.pathIsDir path ∧ isDistInfo path then do
    let b ← b.addPath D fs path
    b.addPath D fs (path.join ["METADATA"])
  else pure b

/-- The builder of `python_fingerprint`, over the candidate directories. -/
def pythonWalk (dirs : List Path) : Except FingerprintError FingerprintBuilder :=
  dirs.foldlM (fun b dir => do
    let b ← b.addPath D fs dir
    let children ← sortedChildren fs dir
    children.foldlM (addPython D fs) b) .new

/-- A package in a scope. -/
def addPackage (b : FingerprintBuilder) (package : Path) :
    Except FingerprintError FingerprintBuilder :=
  if fs.pathIsDir package then do
    let b ← b.addPath D fs package
    b.addPath D fs (package.join ["package.json"])
  else pure b

/-- One child of a directory of Node.js packages. -/
def addNodejs (b : FingerprintBuilder) (path : Path) : Except FingerprintError FingerprintBuilder :=
  if fs.pathIsDir path = false then pure b
  else if path.isScope then do
    let b ← b.addPath D fs path
    let packages ← sortedChildren fs path
    packages.foldlM (addPackage D fs) b
  else do
    let b ← b.addPath D fs path
    b.addPath D fs (path.join ["package.json"])

/-- ... of `nodejs_fingerprint`. -/
def nodejsWalk (dirs : List Path) : Except FingerprintError FingerprintBuilder :=
  dirs.foldlM (fun b dir => do
    let b ← b.addPath D fs dir
    let children ← sortedChildren fs dir
    children.foldlM (addNodejs D fs) b) .new

/-- The release file that is hashed. -/
def hashedRelease (runtime : Path) : Path :=
  let bundleRelease := runtime.join ["Contents", "Home", "release"]
  if fs.pathIsFile bundleRelease then bundleRelease else runtime.join ["release"]

/-- One child of a directory of Java runtimes. -/
def addJava (b : FingerprintBuilder) (runtime : Path) :
    Except FingerprintError FingerprintBuilder :=
  if fs.pathIsDir runtime then do
    let b ← b.addPath D fs runtime
    b.addPath D fs (hashedRelease fs runtime)
  else pure b

/-- ... of `java_fingerprint`. -/
def javaWalk (dirs : List Path) : Except FingerprintError FingerprintBuilder :=
  dirs.foldlM (fun b dir => do
    let b ← b.addPath D fs dir
    let children ← sortedChildren fs dir
    children.foldlM (addJava D fs) b) .new

/-- What `symlink_metadata` answers, where it does. -/
def LinkFileSystem.answer (fs : LinkFileSystem) (path : Path) : Option Metadata :=
  (fs.symlinkMetadata path).toOption.join

/-- ... and `add_path` with it. -/
def answeredDir (path : Path) : Bool := (fs.answer path).any fun m => m.fileType = .dir

/-- `add_tree`, down to a depth. -/
def addTree : Nat → FingerprintBuilder → Path → Except FingerprintError FingerprintBuilder
  | 0, b, path => b.addPath D fs path
  | depth + 1, b, path => do
    let b ← b.addPath D fs path
    if answeredDir fs path then do
      let children ← sortedChildren fs path
      children.foldlM (addTree depth) b
    else pure b

/-- The databases of the package managers of Linux, and how deep they are walked. -/
def linuxTrees : List (Path × Nat) :=
  [(Path.join [] ["var", "lib", "dpkg", "status"], 0),
    (Path.join [] ["usr", "lib", "sysimage", "rpm"], 2),
    (Path.join [] ["var", "lib", "rpm"], 2),
    (Path.join [] ["var", "lib", "pacman", "local"], 2)]

/-- ... of `platform_fingerprint`, on Linux. -/
def platformWalk : Except FingerprintError FingerprintBuilder :=
  linuxTrees.foldlM (fun b tree => addTree D fs tree.2 b tree.1) .new

end Walks

section Fingerprints

variable (L : Libraries) (D : Decoders) (fs : LinkFileSystem) (dirs : List Path)

def pythonFingerprint : Except FingerprintError String :=
  (pythonWalk D fs dirs).map (·.finish L)

def nodejsFingerprint : Except FingerprintError String :=
  (nodejsWalk D fs dirs).map (·.finish L)

def javaFingerprint : Except FingerprintError String :=
  (javaWalk D fs dirs).map (·.finish L)

def platformFingerprint : Except FingerprintError String :=
  (platformWalk D fs).map (·.finish L)

end Fingerprints

/-! ## What the bytes say -/

/-- The time that is hashed. -/
def Metadata.stamp (m : Metadata) : UInt64 × UInt32 := m.modified.getD (0, 0)

/-- The answer as it is hashed: a time that is not known is that of the epoch. -/
def Metadata.observed (m : Metadata) : Metadata := { m with modified := some m.stamp }

theorem hashSystemTime_eq (m : Metadata) :
    hashSystemTime m.modified
      = littleEndian 8 m.stamp.1.toNat ++ littleEndian 4 m.stamp.2.toNat := by
  unfold Metadata.stamp hashSystemTime
  cases m.modified with
  | none => rfl
  | some time => rfl

theorem aligned_hashSystemTime (m m' : Metadata) :
    Aligned (hashSystemTime m.modified) (hashSystemTime m'.modified) (m.stamp = m'.stamp) := by
  rw [hashSystemTime_eq, hashSystemTime_eq]
  refine ((aligned_littleEndian m.stamp.1.toNat_lt m'.stamp.1.toNat_lt).append fun _ =>
    aligned_littleEndian m.stamp.2.toNat_lt m'.stamp.2.toNat_lt).mono fun ⟨hsecs, hnanos⟩ => ?_
  exact Prod.ext (UInt64.toNat_inj.mp hsecs) (UInt32.toNat_inj.mp hnanos)

theorem FileType.tag_inj {t t' : FileType} (h : t.tag = t'.tag) : t = t' := by
  revert h
  cases t <;> cases t' <;> decide

theorem FileType.tag_ne_zero (t : FileType) : t.tag ≠ 0 := by
  cases t <;> decide

/-- **An answer is read off its bytes**, up to a time that is not known. -/
theorem aligned_answerBytes (a a' : Option Metadata) :
    Aligned (answerBytes a) (answerBytes a') (a.map Metadata.observed = a'.map Metadata.observed) := by
  -- the first byte tells a missing path from what is there, and its type
  cases a with
  | none =>
    cases a' with
    | none => exact .of_length rfl fun _ => rfl
    | some m' => exact fun _ _ heq => absurd (List.cons.inj heq).1.symm m'.fileType.tag_ne_zero
  | some m =>
    cases a' with
    | none => exact fun _ _ heq => absurd (List.cons.inj heq).1 m.fileType.tag_ne_zero
    | some m' =>
      have htag : Aligned [m.fileType.tag] [m'.fileType.tag] (m.fileType = m'.fileType) :=
        .of_length rfl fun heq => FileType.tag_inj (List.cons.inj heq).1
      have hlen : Aligned (littleEndian 8 m.len.toNat) (littleEndian 8 m'.len.toNat)
          (m.len.toNat = m'.len.toNat) :=
        aligned_littleEndian m.len.toNat_lt m'.len.toNat_lt
      refine (htag.append fun _ => hlen.append fun _ => aligned_hashSystemTime m m').mono
        fun ⟨htype, hlen, hstamp⟩ => ?_
      unfold Metadata.observed
      rw [Option.map_some, Option.map_some, htype, UInt64.toNat_inj.mp hlen, hstamp]

/-- **A path is read off its bytes**, where its length fits. -/
theorem aligned_pathBytes {p p' : String} (hp : p.utf8ByteSize < 2 ^ 64)
    (hp' : p'.utf8ByteSize < 2 ^ 64) : Aligned (pathBytes p) (pathBytes p') (p = p') := by
  refine ((aligned_littleEndian hp hp').append fun hsize =>
    Aligned.of_length ?_ Json.bytes_inj).mono And.right
  rw [Json.length_bytes, Json.length_bytes, hsize]

/-- A path as it is rendered, and what was found there. -/
abbrev Observation := String × Option Metadata

namespace Observation

def bytes (o : Observation) : Bytes := pathBytes o.1 ++ answerBytes o.2

/-- The observation as it is hashed. -/
def hashedAs (o : Observation) : Observation := (o.1, o.2.map Metadata.observed)

theorem aligned {o o' : Observation} (ho : o.1.utf8ByteSize < 2 ^ 64)
    (ho' : o'.1.utf8ByteSize < 2 ^ 64) : Aligned o.bytes o'.bytes (o.hashedAs = o'.hashedAs) :=
  ((aligned_pathBytes ho ho').append fun _ => aligned_answerBytes o.2 o'.2).mono
    fun ⟨hpath, hanswer⟩ => Prod.ext hpath hanswer

end Observation

/-- The bytes do not tell an unknown time from that of the epoch. -/
theorem Observation.bytes_hashedAs (o : Observation) : o.hashedAs.bytes = o.bytes := by
  unfold Observation.hashedAs Observation.bytes
  cases o.2 with
  | none => rfl
  | some m =>
    unfold answerBytes
    dsimp only [Option.map_some]
    rw [hashSystemTime_eq m.observed, hashSystemTime_eq m]
    rfl

theorem Observation.bytes_ne_nil (o : Observation) : o.bytes ≠ [] := by
  unfold Observation.bytes pathBytes
  intro h
  have hlength := congrArg List.length h
  simp only [List.length_append, length_littleEndian, List.length_nil] at hlength
  omega

/-- **What is hashed says what was observed**, path by path: two texts are the
same only if the same paths were asked about, in the same order, and had the
same answers. -/
theorem observations_of_hashed {seen seen' : List Observation}
    (h : ∀ o ∈ seen, o.1.utf8ByteSize < 2 ^ 64) (h' : ∀ o ∈ seen', o.1.utf8ByteSize < 2 ^ 64)
    (heq : seen.flatMap Observation.bytes = seen'.flatMap Observation.bytes) :
    seen.map Observation.hashedAs = seen'.map Observation.hashedAs := by
  have hbytes : ∀ seen : List Observation,
      (seen.map Observation.hashedAs).flatMap Observation.bytes = seen.flatMap Observation.bytes := by
    intro seen
    rw [List.flatMap_map]
    exact congrArg (seen.flatMap ·) (funext Observation.bytes_hashedAs)
  have hfits : ∀ {seen : List Observation}, (∀ o ∈ seen, o.1.utf8ByteSize < 2 ^ 64) →
      ∀ o ∈ seen.map Observation.hashedAs, o.1.utf8ByteSize < 2 ^ 64 ∧ o.hashedAs = o := by
    intro seen hseen o' ho'
    obtain ⟨o, ho, rfl⟩ := List.mem_map.mp ho'
    refine ⟨hseen o ho, Prod.ext rfl ?_⟩
    show (o.2.map Metadata.observed).map Metadata.observed = o.2.map Metadata.observed
    rw [Option.map_map]
    rfl
  refine Aligned.flatMap_inj (fun a b ha hb => ?_) Observation.bytes_ne_nil (hfits h) (hfits h')
    (by rw [hbytes, hbytes, heq])
  exact (Observation.aligned ha.1 hb.1).mono fun hab => by rwa [ha.2, hb.2] at hab

/-! ## What a walk visits -/

section Visits

variable (D : Decoders) (fs : LinkFileSystem)

/-- What is observed at a path. -/
def observe (path : Path) : Observation := (D.fromUtf8Lossy path.written, fs.answer path)

/-- **A part of a walk visits these paths**: if it does not fail, it has asked
about each of them, and hashed what it observed. -/
def Visits (step : FingerprintBuilder → Except FingerprintError FingerprintBuilder)
    (paths : List Path) : Prop :=
  ∀ b b', step b = .ok b' →
    b'.hashed = b.hashed ++ paths.flatMap (fun path => (observe D fs path).bytes) ∧
      ∀ path ∈ paths, fs.symlinkMetadata path = .ok (fs.answer path)

variable {D fs}

namespace Visits

theorem none : Visits D fs (fun b => pure b) [] := by
  rintro b _ ⟨⟩
  exact ⟨(List.append_nil _).symm, fun _ h => (List.not_mem_nil h).elim⟩

theorem addPath (path : Path) : Visits D fs (fun b => b.addPath D fs path) [path] := by
  intro b b' h
  replace h : b.addPath D fs path = .ok b' := h
  unfold FingerprintBuilder.addPath at h
  split at h
  · cases h
  · split at h
    · cases h
    · next answer hanswer =>
      obtain rfl := Except.ok.inj h
      have hfound : fs.answer path = answer := by
        unfold LinkFileSystem.answer
        rw [hanswer]
        rfl
      rw [List.flatMap_singleton, List.forall_mem_singleton, hfound]
      refine ⟨?_, hanswer⟩
      unfold observe Observation.bytes
      rw [hfound]

/-- One part after the other. -/
theorem append {step step' : FingerprintBuilder → Except FingerprintError FingerprintBuilder}
    {paths paths' : List Path} (h : Visits D fs step paths) (h' : Visits D fs step' paths') :
    Visits D fs (fun b => step b >>= step') (paths ++ paths') := by
  intro b b'' hstep
  replace hstep : step b >>= step' = .ok b'' := hstep
  cases hb : step b with
  | error e =>
    rw [hb] at hstep
    cases hstep
  | ok b' =>
    rw [hb] at hstep
    obtain ⟨hhashed, hpaths⟩ := h b b' hb
    obtain ⟨hhashed', hpaths'⟩ := h' b' b'' hstep
    rw [hhashed', hhashed, List.append_assoc, List.flatMap_append]
    exact ⟨rfl, List.forall_mem_append.mpr ⟨hpaths, hpaths'⟩⟩

/-- A loop visits what its rounds visit. -/
theorem foldlM {α : Type} {step : FingerprintBuilder → α → Except FingerprintError FingerprintBuilder}
    {paths : α → List Path} (h : ∀ x, Visits D fs (fun b => step b x) (paths x)) (xs : List α) :
    Visits D fs (fun b => xs.foldlM step b) (xs.flatMap paths) := by
  induction xs with
  | nil => exact none
  | cons x xs ih =>
    rw [List.flatMap_cons]
    exact (h x).append ih

end Visits

/-- The paths `sorted_children` gives, where it does not fail. -/
def childPaths (fs : LinkFileSystem) (path : Path) : List Path :=
  match fs.metadata path with
  | .ok (some (.dir names)) => (names.map fun name => path ++ [name]).insertionSort fun a b => a ≤ b
  | _ => []

theorem FileSystem.pathIsDir_iff {fs : FileSystem} {path : Path} :
    fs.pathIsDir path = true ↔ ∃ names, fs.metadata path = .ok (some (.dir names)) := by
  unfold FileSystem.pathIsDir
  constructor
  · intro h
    split at h
    · next names hmeta => exact ⟨names, hmeta⟩
    · cases h
  · rintro ⟨names, hmeta⟩
    rw [hmeta]

/-- What is a directory can be read, or it cannot. -/
theorem FileSystem.readDir_of_metadata {fs : FileSystem} {path : Path} {names : List Bytes}
    (h : fs.metadata path = .ok (some (.dir names))) :
    fs.readDir path = .error () ∨ fs.readDir path = .ok (some names) := by
  unfold FileSystem.metadata at h
  unfold FileSystem.readDir
  split at h
  · cases h
  · rw [Except.ok.inj h]
    split
    · exact .inl rfl
    · exact .inr rfl

theorem sortedChildren_ok {path : Path} {children : List Path}
    (h : sortedChildren fs path = .ok children) : children = childPaths fs path := by
  unfold sortedChildren at h
  unfold childPaths
  cases hdir : fs.pathIsDir path with
  | true =>
    obtain ⟨names, hmeta⟩ := FileSystem.pathIsDir_iff.mp hdir
    rw [if_neg (by rw [hdir]; decide)] at h
    rw [hmeta]
    rcases FileSystem.readDir_of_metadata hmeta with hread | hread
    · rw [hread] at h
      cases h
    · rw [hread] at h
      dsimp only at h
      split at h
      · cases h
      · exact (Except.ok.inj h).symm
  | false =>
    rw [if_pos hdir] at h
    obtain rfl := Except.ok.inj h
    split
    · next names hmeta =>
      rw [FileSystem.pathIsDir_iff.mpr ⟨names, hmeta⟩] at hdir
      cases hdir
    · rfl

/-- The children of a directory and what is visited of each. -/
theorem Visits.children {path : Path}
    {step : FingerprintBuilder → Path → Except FingerprintError FingerprintBuilder}
    {paths : Path → List Path} (h : ∀ child, Visits D fs (fun b => step b child) (paths child)) :
    Visits D fs (fun b => do
      let children ← sortedChildren fs path
      children.foldlM step b) ((childPaths fs path).flatMap paths) := by
  intro b b' hstep
  replace hstep : (sortedChildren fs path >>= fun children => children.foldlM step b) = .ok b' := hstep
  cases hchildren : sortedChildren fs path with
  | error e =>
    rw [hchildren] at hstep
    cases hstep
  | ok children =>
    rw [hchildren] at hstep
    rw [← sortedChildren_ok hchildren]
    exact Visits.foldlM h children b b' hstep

end Visits

end Lariska
