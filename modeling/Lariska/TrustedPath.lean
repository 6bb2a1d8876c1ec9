import Lariska.ManifestSigning
import Mathlib.Data.List.Infix

/-!
# The programs the collectors may start

A collector starts a program by its name, and `find_trusted_binary` looks it up
in a few directories of the system, never in `$PATH`. A name that is a path is
taken only when it begins with one of these directories. It begins with one
component by component, `..` being a component as good as any: the path may
lead out of the directory again. Without `..`, what is found is always in one
of the directories.
-/

namespace Lariska

/-! ## Paths -/

/-- `std::path::Component`, of Unix. -/
inductive PathComponent where
  | rootDir
  | curDir
  | parentDir
  | normal (name : List Char)
deriving DecidableEq

/-- The component between two separators. Nothing and a dot are none. -/
def pathComponent (part : List Char) : Option PathComponent :=
  if part = [] ∨ part = ['.'] then none
  else if part = ['.', '.'] then some .parentDir
  else some (.normal part)

/-- `Path::is_absolute`. -/
def isAbsolute (path : String) : Bool := path.toList.head? = some '/'

/-- `Path::components`. A dot is a component at the beginning of a relative
path. -/
def pathComponents (path : String) : List PathComponent :=
  let parts := path.toList.splitOn '/'
  (if isAbsolute path then [.rootDir] else if parts.head? = some ['.'] then [.curDir] else []) ++
    parts.filterMap pathComponent

/-- `Path::starts_with`. -/
def pathStartsWith (path dir : String) : Bool :=
  (pathComponents dir).isPrefixOf (pathComponents path)

/-- `Path::join`. -/
def joinPath (dir path : String) : String :=
  if isAbsolute path then path
  else if dir.toList.getLast? = none ∨ dir.toList.getLast? = some '/' then dir ++ path
  else dir ++ "/" ++ path

/-! ## The code -/

/-- `TRUSTED_SYSTEM_DIRS`. -/
def TargetOs.trustedSystemDirs : TargetOs → List String
  | .linux _ => ["/usr/bin", "/bin", "/usr/sbin", "/sbin", "/usr/local/bin"]
  | .macos =>
    ["/usr/bin", "/bin", "/usr/sbin", "/sbin", "/opt/homebrew/bin", "/usr/local/bin",
      "/opt/local/bin"]
  | .windows _ | .other _ => []

/-- `find_trusted_binary`, where `isFile` says which paths are files. Where the
paths are not those of Unix, there are no directories either. -/
def findTrustedBinary (os : TargetOs) (isFile : String → Bool) (binaryName : String) :
    Option String :=
  if '/' ∈ binaryName.toList ∨ '\\' ∈ binaryName.toList ∨ ['.', '.'] <:+: binaryName.toList then
    if isAbsolute binaryName ∧ os.trustedSystemDirs.any (pathStartsWith binaryName ·) ∧
        isFile binaryName then
      some binaryName
    else none
  else (os.trustedSystemDirs.map (joinPath · binaryName)).find? isFile

/-! ## Where a path leads -/

/-- One component further. -/
def enter (stack : List (List Char)) : PathComponent → List (List Char)
  | .rootDir => []
  | .curDir => stack
  | .parentDir => stack.dropLast
  | .normal name => stack ++ [name]

/-- The names of an absolute path, its `.` and `..` resolved. -/
def resolve (path : String) : List (List Char) := (pathComponents path).foldl enter []

/-- The path leads into the directory. -/
def Inside (dir path : String) : Prop := resolve dir <+: resolve path

instance (dir path : String) : Decidable (Inside dir path) :=
  inferInstanceAs (Decidable (resolve dir <+: resolve path))

/-- **What is found is in a trusted directory.** -/
def Contained (os : TargetOs) (isFile : String → Bool) (binaryName : String) : Prop :=
  ∀ path, findTrustedBinary os isFile binaryName = some path →
    ∃ dir ∈ os.trustedSystemDirs, Inside dir path

/-- **An absolute path that leads astray**: it begins with a trusted directory,
leads to a file, and goes up so often that this is in none of them. -/
structure Escapes (os : TargetOs) (isFile : String → Bool) (binaryName : String) : Prop where
  absolute : isAbsolute binaryName = true
  begins : ∃ dir ∈ os.trustedSystemDirs, pathStartsWith binaryName dir = true
  file : isFile binaryName = true
  climbs : PathComponent.parentDir ∈ pathComponents binaryName
  outside : ∀ dir ∈ os.trustedSystemDirs, ¬ Inside dir binaryName

/-! ## Going down -/

/-- Names only lead further down. -/
theorem prefix_foldl_enter {stack : List (List Char)} {further : List PathComponent}
    (hroot : .rootDir ∉ further) (hparent : .parentDir ∉ further) :
    stack <+: further.foldl enter stack := by
  induction further generalizing stack with
  | nil => exact List.prefix_refl stack
  | cons c further ih =>
    have hstep : stack <+: enter stack c := by
      cases c with
      | rootDir => exact absurd List.mem_cons_self hroot
      | parentDir => exact absurd List.mem_cons_self hparent
      | curDir => exact List.prefix_refl stack
      | normal name => exact List.prefix_append stack [name]
    exact hstep.trans (ih (fun h => hroot (List.mem_cons_of_mem c h))
      fun h => hparent (List.mem_cons_of_mem c h))

theorem pathComponent_ne_rootDir (part : List Char) : pathComponent part ≠ some .rootDir := by
  unfold pathComponent
  split_ifs
  · exact fun h => (by cases h)
  · exact fun h => (by cases h)
  · exact fun h => (by cases h)

theorem pathComponent_eq_parentDir {part : List Char} (h : pathComponent part = some .parentDir) :
    part = ['.', '.'] := by
  unfold pathComponent at h
  split_ifs at h with _ hparts
  · exact hparts
  · cases h

theorem pathComponents_of_absolute {path : String} (h : isAbsolute path = true) :
    pathComponents path = .rootDir :: (path.toList.splitOn '/').filterMap pathComponent := by
  unfold pathComponents
  simp only [if_pos h]
  rfl

/-- A path that begins with a directory, and goes up nowhere, leads into it. -/
theorem inside_of_startsWith {dir path : String} (hdir : isAbsolute dir = true)
    (hpath : isAbsolute path = true) (h : pathStartsWith path dir = true)
    (hparent : .parentDir ∉ pathComponents path) : Inside dir path := by
  obtain ⟨further, hfurther⟩ := List.isPrefixOf_iff_prefix.mp h
  have hcomponents := hfurther
  rw [pathComponents_of_absolute hdir, pathComponents_of_absolute hpath, List.cons_append] at hfurther
  have hroot : .rootDir ∉ further := by
    intro hmem
    have hmem' : PathComponent.rootDir ∈ (path.toList.splitOn '/').filterMap pathComponent := by
      rw [← (List.cons.inj hfurther).2]
      exact List.mem_append_right _ hmem
    obtain ⟨part, -, hpart⟩ := List.mem_filterMap.mp hmem'
    exact pathComponent_ne_rootDir part hpart
  unfold Inside resolve
  rw [← hcomponents, List.foldl_append]
  refine prefix_foldl_enter hroot fun hmem => hparent ?_
  rw [← hcomponents]
  exact List.mem_append_right _ hmem

/-! ## Names -/

/-- The directories are absolute, and are joined with a separator. -/
theorem trustedSystemDirs_absolute (os : TargetOs) :
    ∀ dir ∈ os.trustedSystemDirs, isAbsolute dir = true ∧
      ¬ (dir.toList.getLast? = none ∨ dir.toList.getLast? = some '/') := by
  cases os with
  | windows _ => exact fun _ h => (by cases h)
  | macos => decide
  | linux _ =>
    show ∀ dir ∈ ["/usr/bin", "/bin", "/usr/sbin", "/sbin", "/usr/local/bin"], _
    decide
  | other _ => exact fun _ h => (by cases h)

/-- **A name that is no path is found in the directory.** -/
theorem inside_joinPath {dir name : String} (hdir : isAbsolute dir = true)
    (hjoin : ¬ (dir.toList.getLast? = none ∨ dir.toList.getLast? = some '/'))
    (hname : '/' ∉ name.toList) (hdots : ¬ ['.', '.'] <:+: name.toList) :
    Inside dir (joinPath dir name) := by
  have hrelative : isAbsolute name = false := by
    unfold isAbsolute
    cases hlist : name.toList with
    | nil => rfl
    | cons c rest =>
      rw [hlist] at hname
      have hc : c ≠ '/' := fun h => hname (h ▸ List.mem_cons_self)
      simpa using hc
  have hpath : joinPath dir name = dir ++ "/" ++ name := by
    unfold joinPath
    rw [hrelative, if_neg Bool.false_ne_true, if_neg hjoin]
  have htext : (joinPath dir name).toList = dir.toList ++ '/' :: name.toList := by
    rw [hpath, String.toList_append, String.toList_append, List.append_assoc]
    rfl
  have habsolute : isAbsolute (joinPath dir name) = true := by
    unfold isAbsolute at hdir ⊢
    rw [htext, List.head?_append, of_decide_eq_true hdir]
    rfl
  have hcomponents : pathComponents (joinPath dir name)
      = pathComponents dir ++ (pathComponent name.toList).toList := by
    rw [pathComponents_of_absolute habsolute, pathComponents_of_absolute hdir, htext,
      List.splitOn_append_cons_self, List.splitOn_eq_singleton hname, List.filterMap_append,
      List.cons_append]
    rfl
  unfold Inside resolve
  rw [hcomponents, List.foldl_append]
  refine prefix_foldl_enter (fun hmem => ?_) fun hmem => ?_
  · exact pathComponent_ne_rootDir name.toList (Option.mem_toList.mp hmem)
  · refine hdots ?_
    rw [pathComponent_eq_parentDir (Option.mem_toList.mp hmem)]

/-! ## What is found -/

/-- **The code finds what is in a trusted directory, unless the name is an
absolute path that leads astray.** -/
theorem contained_iff (os : TargetOs) (isFile : String → Bool) (binaryName : String) :
    Contained os isFile binaryName ↔ ¬ Escapes os isFile binaryName := by
  by_cases hpath : '/' ∈ binaryName.toList ∨ '\\' ∈ binaryName.toList ∨
      ['.', '.'] <:+: binaryName.toList
  · have hfind : findTrustedBinary os isFile binaryName =
        if isAbsolute binaryName ∧ os.trustedSystemDirs.any (pathStartsWith binaryName ·) ∧
          isFile binaryName then some binaryName else none := if_pos hpath
    by_cases htaken : isAbsolute binaryName ∧
        os.trustedSystemDirs.any (pathStartsWith binaryName ·) ∧ isFile binaryName
    · have hcontained : Contained os isFile binaryName ↔
          ∃ dir ∈ os.trustedSystemDirs, Inside dir binaryName := by
        unfold Contained
        rw [hfind, if_pos htaken]
        exact ⟨fun h => h binaryName rfl, fun h path hpath => Option.some.inj hpath ▸ h⟩
      obtain ⟨habsolute, hany, hfile⟩ := htaken
      obtain ⟨dir, hdir, hstarts⟩ := List.any_eq_true.mp hany
      rw [hcontained]
      constructor
      · rintro ⟨dir, hdir, hinside⟩ hescapes
        exact hescapes.outside dir hdir hinside
      · intro hescapes
        by_contra hnone
        have houtside : ∀ dir ∈ os.trustedSystemDirs, ¬ Inside dir binaryName :=
          fun dir hdir hinside => hnone ⟨dir, hdir, hinside⟩
        -- Without `..`, the path would not leave the directory it begins with.
        have hclimbs : PathComponent.parentDir ∈ pathComponents binaryName := by
          by_contra hparent
          exact houtside dir hdir (inside_of_startsWith (trustedSystemDirs_absolute os dir hdir).1
            habsolute hstarts hparent)
        exact hescapes ⟨habsolute, ⟨dir, hdir, hstarts⟩, hfile, hclimbs, houtside⟩
    · have hnone : findTrustedBinary os isFile binaryName = none := hfind.trans (if_neg htaken)
      constructor
      · intro _ hescapes
        obtain ⟨dir, hdir, hstarts⟩ := hescapes.begins
        exact htaken ⟨hescapes.absolute, List.any_eq_true.mpr ⟨dir, hdir, hstarts⟩, hescapes.file⟩
      · intro _ path heq
        rw [hnone] at heq
        cases heq
  · have hname : '/' ∉ binaryName.toList := fun h => hpath (.inl h)
    have hdots : ¬ ['.', '.'] <:+: binaryName.toList := fun h => hpath (.inr (.inr h))
    constructor
    · intro _ hescapes
      exact hname (List.mem_of_mem_head? (of_decide_eq_true hescapes.absolute))
    · intro _ path heq
      have hfind : (os.trustedSystemDirs.map (joinPath · binaryName)).find? isFile = some path :=
        (if_neg hpath).symm.trans heq
      obtain ⟨dir, hdir, rfl⟩ := List.mem_map.mp (List.mem_of_find?_eq_some hfind)
      obtain ⟨habsolute, hjoin⟩ := trustedSystemDirs_absolute os dir hdir
      exact ⟨dir, hdir, inside_joinPath habsolute hjoin hname hdots⟩

namespace Sample

/-- A program that everybody may replace, by way of a trusted directory. -/
def tmpProgram : String := "/usr/bin/../../tmp/payload"

/-- **A file outside the trusted directories is selected.** -/
theorem tmpProgram_selected : ¬ Contained (.linux false) (· = tmpProgram) tmpProgram := by
  intro hcontained
  obtain ⟨dir, hdir, hinside⟩ := hcontained tmpProgram (by decide)
  revert hinside
  revert dir
  decide

end Sample

end Lariska
