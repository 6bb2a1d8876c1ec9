import Lariska.RuntimeCollectors

/-!
# What a complete runtime report says

A report of a source as complete is to say two things: of no installation that
is there did a query fail, and each has its entry. The collectors of Python and
of Node.js keep to this. The collector of Java asks by `exists` whether a
directory is a runtime at all, and takes an error for an absence: it keeps to
it just where no such query fails unnoticed (`complete_is_honest`).
-/

namespace Lariska

/-! ## What is there -/

namespace FileSystem

variable (fs : FileSystem)

def isDir (path : Path) : Bool :=
  match fs.node path with
  | some (.dir _) => true
  | _ => false

/-- The directories in a directory, in their order. -/
def children (dir : Path) : List Path :=
  match fs.node dir with
  | some (.dir names) =>
    ((names.map fun name => dir ++ [name]).filter fs.isDir).insertionSort fun a b => a ≤ b
  | _ => []

/-- All of a directory can be enumerated, within the limit, if it is there. -/
def Listed (dir : Path) : Prop :=
  fs.denied .readDir dir = false ∧
    match fs.node dir with
    | none => True
    | some (.dir names) =>
      (∀ name ∈ names, fs.denied .entry (dir ++ [name]) = false ∧
        fs.denied .stat (dir ++ [name]) = false) ∧
      ((names.dropLast.map fun name => dir ++ [name]).filter fs.isDir).length < maxChildDirs
    | some _ => False

end FileSystem

variable {L : Libraries} {D : Decoders} {fs : FileSystem} {now : String} {dirs : List Path}
variable {r r' r'' : CollectorResult} {seen seen' : Prop} {entries entries' : List SoftwareEntry}

/-! ## Gathering entries -/

/-- From one result to another: some entries are gathered, all of them if what
was to be seen was seen. -/
structure Gathers (r r' : CollectorResult) (seen : Prop) (entries : List SoftwareEntry) : Prop where
  complete : r'.complete = true ↔ r.complete = true ∧ seen
  entries : seen → r'.entries = r.entries ++ entries
  sources : r'.sources = r.sources

namespace Gathers

theorem refl (r : CollectorResult) : Gathers r r True [] :=
  ⟨by simp, by simp, rfl⟩

theorem trans (h : Gathers r r' seen entries) (h' : Gathers r' r'' seen' entries') :
    Gathers r r'' (seen ∧ seen') (entries ++ entries') where
  complete := by rw [h'.complete, h.complete, and_assoc]
  entries hseen := by rw [h'.entries hseen.2, h.entries hseen.1, List.append_assoc]
  sources := h'.sources.trans h.sources

theorem congr (h : Gathers r r' seen entries) (hseen : seen ↔ seen') : Gathers r r' seen' entries :=
  ⟨by rw [h.complete, hseen], fun h' => h.entries (hseen.mpr h'), h.sources⟩

/-- What follows does not matter once something has not been seen. -/
theorem of_not (h : Gathers r r' seen entries) (hno : ¬seen) (hno' : ¬seen')
    (entries' : List SoftwareEntry) : Gathers r r' seen' entries' :=
  ⟨by rw [h.complete]; simp [hno, hno'], fun h' => absurd h' hno', h.sources⟩

/-- What is marked as failed has not been seen. -/
theorem markFailed (r : CollectorResult) (code : String) (h : ¬seen) (entries : List SoftwareEntry) :
    Gathers r (r.markFailed code) seen entries :=
  ⟨by simp [CollectorResult.markFailed, h], fun hseen => absurd hseen h, rfl⟩

theorem push (r : CollectorResult) (entry : Option SoftwareEntry) :
    Gathers r (r.push entry) (entry.isSome = true) entry.toList := by
  cases entry with
  | none => exact markFailed r _ (by simp) _
  | some entry => exact ⟨by simp [CollectorResult.push], fun _ => rfl, rfl⟩

/-- One after the other. -/
theorem foldl {α : Type} {f : CollectorResult → α → CollectorResult} {seen : α → Prop}
    {entries : α → List SoftwareEntry} (h : ∀ r x, Gathers r (f r x) (seen x) (entries x))
    (xs : List α) (r : CollectorResult) :
    Gathers r (xs.foldl f r) (∀ x ∈ xs, seen x) (xs.flatMap entries) := by
  induction xs generalizing r with
  | nil => exact ⟨by simp, by simp, rfl⟩
  | cons x xs ih =>
    rw [List.forall_mem_cons, List.flatMap_cons]
    exact (h r x).trans (ih (f r x))

end Gathers

/-! ## The directories in a directory -/

/-- One name of the loop. -/
theorem childDirsLoop_cons (dir : Path) (name : Bytes) (names : List Bytes) (found : List Path)
    (r : CollectorResult) :
    childDirsLoop fs dir (name :: names) found r =
      if found.length ≥ maxChildDirs then (found, r.markFailed "collection_limit_exceeded")
      else if fs.denied .entry (dir ++ [name]) = false ∧ fs.denied .stat (dir ++ [name]) = false then
        childDirsLoop fs dir names (found ++ [dir ++ [name]].filter fs.isDir) r
      else childDirsLoop fs dir names found (r.markFailed "directory_unreadable") := by
  rw [childDirsLoop]
  refine ite_congr rfl (fun _ => rfl) fun _ => ?_
  dsimp only
  unfold FileSystem.metadata
  cases hentry : fs.denied .entry (dir ++ [name]) with
  | true => simp
  | false =>
    cases hstat : fs.denied .stat (dir ++ [name]) with
    | true => simp
    | false =>
      have hdir : fs.isDir (dir ++ [name])
          = match fs.node (dir ++ [name]) with | some (.dir _) => true | _ => false := rfl
      cases hnode : fs.node (dir ++ [name]) with
      | none => simp [hdir, hnode]
      | some node => cases node <;> simp [hdir, hnode]

/-- What is left of a directory can be enumerated, when so many directories in
it have been found. -/
def RestListed (fs : FileSystem) (dir : Path) (names : List Bytes) (found : Nat) : Prop :=
  (∀ name ∈ names, fs.denied .entry (dir ++ [name]) = false ∧
    fs.denied .stat (dir ++ [name]) = false) ∧
  (names = [] ∨
    found + ((names.dropLast.map fun name => dir ++ [name]).filter fs.isDir).length < maxChildDirs)

/-- All of it is left before the first. -/
theorem restListed_zero (fs : FileSystem) (dir : Path) (names : List Bytes) :
    RestListed fs dir names 0 ↔
      (∀ name ∈ names, fs.denied .entry (dir ++ [name]) = false ∧
        fs.denied .stat (dir ++ [name]) = false) ∧
      ((names.dropLast.map fun name => dir ++ [name]).filter fs.isDir).length < maxChildDirs := by
  unfold RestListed
  rw [Nat.zero_add]
  refine and_congr_right fun _ => or_iff_right_of_imp ?_
  rintro rfl
  show 0 < maxChildDirs
  decide

/-- One name less. -/
theorem restListed_cons {dir : Path} {name : Bytes} (names : List Bytes) {found : Nat}
    (hname : fs.denied .entry (dir ++ [name]) = false ∧ fs.denied .stat (dir ++ [name]) = false)
    (hfound : found < maxChildDirs) :
    RestListed fs dir (name :: names) found ↔
      RestListed fs dir names (found + ([dir ++ [name]].filter fs.isDir).length) := by
  unfold RestListed
  rw [List.forall_mem_cons, and_iff_right hname]
  refine and_congr_right fun _ => ?_
  cases names with
  | nil => simpa using hfound
  | cons next names =>
    rw [List.dropLast_cons_cons, List.map_cons, List.filter_cons, Nat.add_assoc, ← List.length_append,
      ← List.filter_append, List.singleton_append, List.filter_cons]
    simp

theorem gathers_childDirsLoop (fs : FileSystem) (dir : Path) (names : List Bytes) (found : List Path)
    (r : CollectorResult) :
    Gathers r (childDirsLoop fs dir names found r).2 (RestListed fs dir names found.length) [] ∧
      (RestListed fs dir names found.length → (childDirsLoop fs dir names found r).1
        = found ++ (names.map fun name => dir ++ [name]).filter fs.isDir) := by
  induction names generalizing found r with
  | nil =>
    refine ⟨(Gathers.refl r).congr (by simp [RestListed]), fun _ => ?_⟩
    simp [childDirsLoop]
  | cons name names ih =>
    rw [childDirsLoop_cons]
    by_cases hlimit : found.length ≥ maxChildDirs
    · rw [if_pos hlimit]
      have hno : ¬RestListed fs dir (name :: names) found.length := by
        rintro ⟨-, h | h⟩
        · cases h
        · omega
      exact ⟨.markFailed r _ hno [], fun h => absurd h hno⟩
    rw [if_neg hlimit]
    by_cases hname : fs.denied .entry (dir ++ [name]) = false ∧
        fs.denied .stat (dir ++ [name]) = false
    · rw [if_pos hname]
      have hrest := restListed_cons names hname (Nat.lt_of_not_ge hlimit)
      rw [← List.length_append] at hrest
      obtain ⟨hgathers, hfound⟩ := ih (found ++ [dir ++ [name]].filter fs.isDir) r
      refine ⟨hgathers.congr hrest.symm, fun h => ?_⟩
      rw [hfound (hrest.mp h), List.append_assoc, ← List.filter_append]
      rfl
    · rw [if_neg hname]
      have hno : ¬RestListed fs dir (name :: names) found.length :=
        fun h => hname (h.1 name List.mem_cons_self)
      -- the directory is marked already, whatever else is read of it
      exact ⟨((Gathers.markFailed r _ hno []).trans (ih found _).1).of_not (fun h => hno h.1) hno [],
        fun h => absurd h hno⟩

/-- What is gathered from the directories in a directory. -/
theorem gathers_children (fs : FileSystem) {f : CollectorResult → Path → CollectorResult} {seen : Path → Prop}
    {entries : Path → List SoftwareEntry} (h : ∀ r x, Gathers r (f r x) (seen x) (entries x))
    (dir : Path) (r : CollectorResult) :
    Gathers r ((childDirs fs dir r).1.foldl f (childDirs fs dir r).2)
      (fs.Listed dir ∧ ∀ c ∈ fs.children dir, seen c) ((fs.children dir).flatMap entries) := by
  have hdir : Gathers r (childDirs fs dir r).2 (fs.Listed dir) [] ∧
      (fs.Listed dir → (childDirs fs dir r).1 = fs.children dir) := by
    unfold childDirs FileSystem.readDir FileSystem.Listed FileSystem.children
    cases hdenied : fs.denied .readDir dir with
    | true => exact ⟨.markFailed r _ (fun h => nomatch h.1) [], fun h => nomatch h.1⟩
    | false =>
      rw [if_neg Bool.false_ne_true, and_iff_right rfl]
      cases fs.node dir with
      | none => exact ⟨Gathers.refl r, fun _ => rfl⟩
      | some node =>
        cases node with
        | dir names =>
          obtain ⟨hgathers, hfound⟩ := gathers_childDirsLoop fs dir names [] r
          have hrest := restListed_zero fs dir names
          exact ⟨hgathers.congr hrest, fun h => congrArg _ (hfound (hrest.mpr h))⟩
        | _ => exact ⟨.markFailed r _ id [], fun h => h.elim⟩
  by_cases hlisted : fs.Listed dir
  · rw [hdir.2 hlisted]
    exact hdir.1.trans (Gathers.foldl h _ _)
  · exact (hdir.1.trans (Gathers.foldl h (childDirs fs dir r).1 _)).of_not
      (fun h => hlisted h.1) (fun h => hlisted h.1) _

/-! ## What a report is to say -/

/-- The source is reported as complete. -/
def ReportsComplete (r : CollectorResult) : Prop := ∃ s ∈ r.sources, s.status = .complete

/-- **A report is honest**: of no installation that is there did a query fail,
and each has its entry. -/
structure Honest (D : Decoders) (fs : FileSystem) (source : SoftwareSource)
    (installations : List Path) (queries : List (Query × Path)) (r : CollectorResult) : Prop where
  answered : ∀ q ∈ queries, fs.denied q.1 q.2 = false
  entries : List.Forall₂ (fun path e => e.source = source ∧
    e.installLocation = some (D.fromUtf8Lossy path.written)) installations r.entries

/-- What is gathered is reported as complete if all was seen, and there is
something of the kind. -/
theorem reportsComplete_withSource (h : Gathers .empty r seen entries) (absent : Prop)
    [Decidable absent] (source : SoftwareSource) :
    ReportsComplete (if absent ∧ r.complete = true then .notApplicable now source
      else r.withSource now source) ↔ ¬absent ∧ seen := by
  have hseen : r.complete = true ↔ seen := by simp [h.complete, CollectorResult.empty]
  have hnone : r.sources = [] := h.sources
  unfold ReportsComplete
  by_cases hr : r.complete = true
  · by_cases habsent : absent
    · simp [hr, habsent, CollectorResult.notApplicable, CollectionSource.new]
    · simp [hr, habsent, hseen.mp hr, CollectorResult.withSource, hnone, CollectionSource.new,
        CollectorResult.status]
  · have hno : ¬seen := fun h => hr (hseen.mpr h)
    have hstatus : r.status ≠ .complete := by
      unfold CollectorResult.status
      rw [if_neg hr]
      split <;> decide
    simp [hr, hno, hstatus, CollectorResult.withSource, hnone, CollectionSource.new]

/-- ... and then its entries are all. -/
theorem entries_withSource (h : Gathers .empty r seen entries) {absent : Prop}
    [Decidable absent] (habsent : ¬absent) (hseen : seen) (source : SoftwareSource) :
    (if absent ∧ r.complete = true then CollectorResult.notApplicable now source
      else r.withSource now source).entries = entries := by
  rw [if_neg fun hand => habsent hand.1]
  exact h.entries hseen

/-- The queries by which a directory is found in its parent. -/
def locating (path : Path) : List (Query × Path) :=
  [(.readDir, path.dropLast), (.entry, path), (.stat, path)]

theorem locating_answered {dir : Path} (h : fs.Listed dir) {path : Path}
    (hpath : path ∈ fs.children dir) : ∀ q ∈ locating path, fs.denied q.1 q.2 = false := by
  unfold FileSystem.children at hpath
  obtain ⟨hdenied, hnode⟩ := h
  split at hpath
  · next names hdir =>
    rw [hdir] at hnode
    obtain ⟨name, hname, rfl⟩ :=
      List.mem_map.mp (List.mem_filter.mp ((List.mem_insertionSort _).mp hpath)).1
    obtain ⟨hentry, hstat⟩ := hnode.1 name hname
    simp [locating, hdenied, hentry, hstat]
  · cases hpath

/-- Where each package is read, there is one entry for each. -/
theorem forall₂_entries {read : Path → Option SoftwareEntry} {P : Path → SoftwareEntry → Prop}
    (hP : ∀ path e, read path = some e → P path e) (paths : List Path)
    (h : ∀ path ∈ paths, (read path).isSome = true) :
    List.Forall₂ P paths (paths.flatMap fun path => (read path).toList) := by
  induction paths with
  | nil => exact .nil
  | cons path paths ih =>
    obtain ⟨hpath, hpaths⟩ := List.forall_mem_cons.mp h
    obtain ⟨e, he⟩ := Option.isSome_iff_exists.mp hpath
    rw [List.flatMap_cons, he]
    exact .cons (hP path e he) (ih hpaths)

/-- A file that can be read was not denied. -/
theorem denied_of_readTextFileLimited {path : Path}
    (h : (readTextFileLimited D fs path).isSome = true) : fs.denied .read path = false := by
  unfold readTextFileLimited at h
  split at h
  · cases h
  · next hdenied => simpa using hdenied

/-- What is gathered from the packages among the directories in some others. -/
theorem gathers_selected (fs : FileSystem) (selects : Path → Bool) (read : Path → Option SoftwareEntry)
    (dirs : List Path) (r : CollectorResult) :
    Gathers r
      (dirs.foldl (fun result dir =>
        let (paths, result) := childDirs fs dir result
        paths.foldl (fun result path =>
          if ¬selects path then result else result.push (read path)) result) r)
      (∀ dir ∈ dirs, fs.Listed dir ∧
        ∀ path ∈ fs.children dir, selects path = true → (read path).isSome = true)
      ((dirs.flatMap fun dir => (fs.children dir).filter selects).flatMap
        fun path => (read path).toList) := by
  have hpath : ∀ r path, Gathers r (if ¬selects path then r else r.push (read path))
      (selects path = true → (read path).isSome = true)
      (if selects path then (read path).toList else []) := by
    intro r path
    cases hs : selects path with
    | true => exact (Gathers.push r (read path)).congr (by simp)
    | false => exact (Gathers.refl r).congr (by simp)
  have hentries : ((dirs.flatMap fun dir => (fs.children dir).filter selects).flatMap
        fun path => (read path).toList)
      = dirs.flatMap fun dir =>
        (fs.children dir).flatMap fun path => if selects path then (read path).toList else [] := by
    rw [List.flatMap_assoc]
    refine List.flatMap_congr fun dir _ => ?_
    induction fs.children dir with
    | nil => rfl
    | cons path paths ih =>
      rw [List.filter_cons, List.flatMap_cons, ← ih]
      split <;> simp
  rw [hentries]
  exact Gathers.foldl (fun r dir => gathers_children fs hpath dir r) dirs r

/-! ## Python -/

/-- The distributions that are there. -/
def distInfos (fs : FileSystem) (dirs : List Path) : List Path :=
  dirs.flatMap fun dir => (fs.children dir).filter isDistInfo

/-- What is asked about them. -/
def distInfoQueries (fs : FileSystem) (dirs : List Path) : List (Query × Path) :=
  (distInfos fs dirs).flatMap fun path => locating path ++ [(.read, path.join ["METADATA"])]

theorem readDistInfo_place {path : Path} {e : SoftwareEntry}
    (h : readDistInfo L D fs path = some e) :
    e.source = .pip ∧ e.installLocation = some (D.fromUtf8Lossy path.written) := by
  obtain ⟨content, -, hparse⟩ := Option.bind_eq_some_iff.mp h
  obtain ⟨name, -, hname⟩ := Option.bind_eq_some_iff.mp hparse
  split at hname
  · cases hname
  · cases hname
    exact ⟨rfl, rfl⟩

theorem python_honest (h : ReportsComplete (collectPythonDirs L D fs now dirs)) :
    Honest D fs .pip (distInfos fs dirs) (distInfoQueries fs dirs)
      (collectPythonDirs L D fs now dirs) := by
  have hgathers := gathers_selected fs isDistInfo (readDistInfo L D fs) dirs .empty
  unfold collectPythonDirs at h ⊢
  obtain ⟨hsome, hseen⟩ := (reportsComplete_withSource hgathers _ _).mp h
  have hread : ∀ path ∈ distInfos fs dirs, (readDistInfo L D fs path).isSome = true := by
    intro path hpath
    obtain ⟨dir, hdir, hpath⟩ := List.mem_flatMap.mp hpath
    obtain ⟨hmem, hdist⟩ := List.mem_filter.mp hpath
    exact (hseen dir hdir).2 path hmem hdist
  refine ⟨fun q hq => ?_, ?_⟩
  · obtain ⟨path, hpath, hq⟩ := List.mem_flatMap.mp hq
    obtain ⟨dir, hdir, hmem⟩ := List.mem_flatMap.mp hpath
    rcases List.mem_append.mp hq with hq | hq
    · exact locating_answered (hseen dir hdir).1 (List.mem_filter.mp hmem).1 q hq
    · obtain rfl := List.mem_singleton.mp hq
      refine denied_of_readTextFileLimited (D := D) ?_
      exact Option.isSome_of_isSome_bind (hread path hpath)
  · rw [entries_withSource hgathers hsome hseen]
    have hplace : ∀ path e, readDistInfo L D fs path = some e → e.source = .pip ∧
        e.installLocation = some (D.fromUtf8Lossy path.written) := fun _ _ => readDistInfo_place
    exact forall₂_entries hplace _ hread

/-! ## Node.js -/

/-- The packages that are there, in the scopes and out of them. -/
def nodePackages (fs : FileSystem) (dirs : List Path) : List Path :=
  dirs.flatMap fun dir => (fs.children dir).flatMap fun path =>
    if path.isScope then fs.children path else [path]

/-- What is asked about them. -/
def nodePackageQueries (fs : FileSystem) (dirs : List Path) : List (Query × Path) :=
  dirs.flatMap fun dir => (fs.children dir).flatMap fun path => locating path ++
    if path.isScope then
      (fs.children path).flatMap fun package =>
        locating package ++ [(.read, package.join ["package.json"])]
    else [(.read, path.join ["package.json"])]

theorem readPackage_place {path : Path} {e : SoftwareEntry}
    (h : readPackage L D fs path = some e) :
    e.source = .npm ∧ e.installLocation = some (D.fromUtf8Lossy path.written) := by
  obtain ⟨content, -, hparse⟩ := Option.bind_eq_some_iff.mp h
  obtain ⟨parsed, -, hparse⟩ := Option.bind_eq_some_iff.mp hparse
  obtain ⟨name, -, hname⟩ := Option.bind_eq_some_iff.mp hparse
  split at hname
  · cases hname
  · cases hname
    exact ⟨rfl, rfl⟩

/-- What is gathered from a scope, or from a package. -/
theorem gathers_scope (L : Libraries) (D : Decoders) (fs : FileSystem) (r : CollectorResult)
    (path : Path) :
    Gathers r
      (let (packages, result) := if path.isScope then childDirs fs path r else ([path], r)
       packages.foldl (fun result package => result.push (readPackage L D fs package)) result)
      ((path.isScope = true → fs.Listed path) ∧
        ∀ package ∈ if path.isScope then fs.children path else [path],
          (readPackage L D fs package).isSome = true)
      ((if path.isScope then fs.children path else [path]).flatMap
        fun package => (readPackage L D fs package).toList) := by
  have hpackage : ∀ r package, Gathers r (r.push (readPackage L D fs package))
      ((readPackage L D fs package).isSome = true) (readPackage L D fs package).toList :=
    fun r package => Gathers.push r _
  cases hs : path.isScope with
  | true => exact (gathers_children fs hpackage path r).congr (by simp)
  | false => exact (Gathers.foldl hpackage [path] r).congr (by simp)

theorem nodejs_honest (h : ReportsComplete (collectNodejsDirs L D fs now dirs)) :
    Honest D fs .npm (nodePackages fs dirs) (nodePackageQueries fs dirs)
      (collectNodejsDirs L D fs now dirs) := by
  have hgathers := Gathers.foldl (fun r dir =>
    gathers_children fs (gathers_scope L D fs) dir r) dirs .empty
  unfold collectNodejsDirs at h ⊢
  obtain ⟨hsome, hseen⟩ := (reportsComplete_withSource hgathers _ _).mp h
  have hread : ∀ package ∈ nodePackages fs dirs, (readPackage L D fs package).isSome = true := by
    intro package hpackage
    obtain ⟨dir, hdir, hpackage⟩ := List.mem_flatMap.mp hpackage
    obtain ⟨path, hpath, hpackage⟩ := List.mem_flatMap.mp hpackage
    exact ((hseen dir hdir).2 path hpath).2 package hpackage
  have hfile : ∀ package ∈ nodePackages fs dirs,
      fs.denied .read (package.join ["package.json"]) = false := fun package hpackage =>
    denied_of_readTextFileLimited (D := D) (Option.isSome_of_isSome_bind (hread package hpackage))
  refine ⟨fun q hq => ?_, ?_⟩
  · obtain ⟨dir, hdir, hq⟩ := List.mem_flatMap.mp hq
    obtain ⟨path, hpath, hq⟩ := List.mem_flatMap.mp hq
    obtain ⟨hlisted, hpaths⟩ := hseen dir hdir
    have hmem : ∀ package ∈ (if path.isScope then fs.children path else [path]),
        package ∈ nodePackages fs dirs := fun package hpackage =>
      List.mem_flatMap.mpr ⟨dir, hdir, List.mem_flatMap.mpr ⟨path, hpath, hpackage⟩⟩
    rcases List.mem_append.mp hq with hq | hq
    · exact locating_answered hlisted hpath q hq
    · split at hq
      · next hscope =>
        rw [if_pos hscope] at hmem
        obtain ⟨package, hpackage, hq⟩ := List.mem_flatMap.mp hq
        rcases List.mem_append.mp hq with hq | hq
        · exact locating_answered ((hpaths path hpath).1 hscope) hpackage q hq
        · obtain rfl := List.mem_singleton.mp hq
          exact hfile package (hmem package hpackage)
      · next hscope =>
        rw [if_neg hscope] at hmem
        obtain rfl := List.mem_singleton.mp hq
        exact hfile path (hmem path (List.mem_singleton_self path))
  · rw [entries_withSource hgathers hsome hseen]
    have hplace : ∀ path e, readPackage L D fs path = some e → e.source = .npm ∧
        e.installLocation = some (D.fromUtf8Lossy path.written) := fun _ _ => readPackage_place
    have hentries : (dirs.flatMap fun dir => (fs.children dir).flatMap fun path =>
          (if path.isScope then fs.children path else [path]).flatMap
            fun package => (readPackage L D fs package).toList)
        = (nodePackages fs dirs).flatMap fun package => (readPackage L D fs package).toList := by
      unfold nodePackages
      rw [List.flatMap_assoc]
      exact List.flatMap_congr fun dir _ => List.flatMap_assoc.symm
    rw [hentries]
    exact forall₂_entries hplace _ hread

/-! ## Java -/

/-- The files a Java runtime is known by, in the order they are asked for. -/
def runtimeFiles (path : Path) : List Path :=
  [path.join ["Contents", "Home", "release"], path.join ["release"], path.join ["bin", "java"],
    path.join ["bin", "java.exe"]]

/-- The directory has a release file or a `java` binary. -/
def isRuntime (fs : FileSystem) (path : Path) : Bool :=
  (runtimeFiles path).any fun file => (fs.node file).isSome

/-- The runtimes that are there. -/
def runtimes (fs : FileSystem) (dirs : List Path) : List Path :=
  dirs.flatMap fun dir => (fs.children dir).filter (isRuntime fs)

/-- Of some files, those that are asked for: up to the first that is found. -/
def asked (fs : FileSystem) : List Path → List Path
  | [] => []
  | file :: files => file :: if fs.pathExists file then [] else asked fs files

/-- What is asked about the runtimes. -/
def runtimeQueries (fs : FileSystem) (dirs : List Path) : List (Query × Path) :=
  (runtimes fs dirs).flatMap fun path => locating path ++
    (asked fs (runtimeFiles path)).map (fun file => (.stat, file)) ++ [(.read, releaseFile fs path)]

/-- The existence queries about the runtimes do not fail. -/
def RuntimesAnswered (fs : FileSystem) (dirs : List Path) : Prop :=
  ∀ path ∈ runtimes fs dirs, ∀ file ∈ asked fs (runtimeFiles path), fs.denied .stat file = false

/-- Some directory for runtimes is there, all can be enumerated, and the release
file of what is taken for a runtime is read. -/
def RuntimesSeen (L : Libraries) (D : Decoders) (fs : FileSystem) (dirs : List Path) : Prop :=
  dirs.any fs.pathExists = true ∧ ∀ dir ∈ dirs, fs.Listed dir ∧
    ∀ path ∈ fs.children dir, apparent fs path = true → (readRuntime L D fs path).isSome = true

/-- A path that is found is there. -/
theorem node_of_pathExists {path : Path} (h : fs.pathExists path = true) :
    (fs.node path).isSome = true := by
  unfold FileSystem.pathExists FileSystem.metadata at h
  by_cases hdenied : fs.denied .stat path = true
  · simp [hdenied] at h
  · rw [if_neg hdenied] at h
    cases hnode : fs.node path with
    | none => simp [hnode] at h
    | some node => rfl

/-- One of some files is found, if it is there and no query fails. -/
theorem any_pathExists (files : List Path)
    (h : ∀ file ∈ asked fs files, fs.denied .stat file = false) :
    files.any fs.pathExists = files.any fun file => (fs.node file).isSome := by
  induction files with
  | nil => rfl
  | cons file files ih =>
    rw [asked, List.forall_mem_cons] at h
    rw [List.any_cons, List.any_cons]
    cases hfile : fs.pathExists file with
    | true => rw [node_of_pathExists hfile, Bool.true_or, Bool.true_or]
    | false =>
      have hnode : (fs.node file).isSome = false := by
        unfold FileSystem.pathExists FileSystem.metadata at hfile
        rw [h.1, if_neg Bool.false_ne_true] at hfile
        cases hn : fs.node file with
        | none => rfl
        | some node => simp [hn] at hfile
      rw [hfile, if_neg Bool.false_ne_true] at h
      rw [hnode, ih h.2]

theorem apparent_eq_any (path : Path) :
    apparent fs path = (runtimeFiles path).any fs.pathExists := by
  unfold apparent releaseFile runtimeFiles
  dsimp only
  split
  · next h => simp [h]
  · next h => simp [h, Bool.or_assoc]

theorem readRuntime_place {path : Path} {e : SoftwareEntry}
    (h : readRuntime L D fs path = some e) :
    e.source = .java ∧ e.installLocation = some (D.fromUtf8Lossy path.written) := by
  obtain ⟨content, -, hparse⟩ := Option.bind_eq_some_iff.mp h
  obtain ⟨version, -, hversion⟩ := Option.bind_eq_some_iff.mp hparse
  cases hversion
  exact ⟨rfl, rfl⟩

/-- **The collector of Java is honest just where no failed query goes unnoticed**:
where the rest is seen, the existence queries about the runtimes must not fail. -/
theorem java_honest_iff :
    (ReportsComplete (collectJavaDirs L D fs now dirs) →
      Honest D fs .java (runtimes fs dirs) (runtimeQueries fs dirs)
        (collectJavaDirs L D fs now dirs)) ↔
    (RuntimesSeen L D fs dirs → RuntimesAnswered fs dirs) := by
  have hgathers := gathers_selected fs (apparent fs) (readRuntime L D fs) dirs .empty
  have hreports : ReportsComplete (collectJavaDirs L D fs now dirs) ↔
      RuntimesSeen L D fs dirs := by
    unfold collectJavaDirs RuntimesSeen
    rw [reportsComplete_withSource hgathers, Bool.not_eq_false]
  rw [hreports]
  refine imp_congr_right fun hseen => ?_
  constructor
  · intro hhonest path hpath file hfile
    refine hhonest.answered (.stat, file) (List.mem_flatMap.mpr ⟨path, hpath, ?_⟩)
    simp [hfile]
  · intro hanswered
    -- what is taken for a runtime is one
    have hchildren : ∀ dir ∈ dirs, (fs.children dir).filter (apparent fs)
        = (fs.children dir).filter (isRuntime fs) := by
      intro dir hdir
      refine List.filter_congr fun path hpath => ?_
      rw [apparent_eq_any]
      cases hr : isRuntime fs path with
      | true =>
        have hmem : path ∈ runtimes fs dirs :=
          List.mem_flatMap.mpr ⟨dir, hdir, List.mem_filter.mpr ⟨hpath, hr⟩⟩
        exact (any_pathExists _ (hanswered path hmem)).trans hr
      | false =>
        refine List.any_eq_false.mpr fun file hfile hexists => ?_
        exact List.any_eq_false.mp hr file hfile (node_of_pathExists hexists)
    have hruntimes : (dirs.flatMap fun dir => (fs.children dir).filter (apparent fs))
        = runtimes fs dirs := List.flatMap_congr hchildren
    have hread : ∀ path ∈ runtimes fs dirs, (readRuntime L D fs path).isSome = true := by
      intro path hpath
      rw [← hruntimes] at hpath
      obtain ⟨dir, hdir, hpath⟩ := List.mem_flatMap.mp hpath
      obtain ⟨hmem, happarent⟩ := List.mem_filter.mp hpath
      exact (hseen.2 dir hdir).2 path hmem happarent
    refine ⟨fun q hq => ?_, ?_⟩
    · obtain ⟨path, hpath, hq⟩ := List.mem_flatMap.mp hq
      rcases List.mem_append.mp hq with hq | hq
      · rcases List.mem_append.mp hq with hq | hq
        · obtain ⟨dir, hdir, hmem⟩ := List.mem_flatMap.mp hpath
          exact locating_answered (hseen.2 dir hdir).1 (List.mem_filter.mp hmem).1 q hq
        · obtain ⟨file, hfile, rfl⟩ := List.mem_map.mp hq
          exact hanswered path hpath file hfile
      · obtain rfl := List.mem_singleton.mp hq
        refine denied_of_readTextFileLimited (D := D) ?_
        exact Option.isSome_of_isSome_bind (hread path hpath)
    · have hentries : (collectJavaDirs L D fs now dirs).entries
          = (runtimes fs dirs).flatMap fun path => (readRuntime L D fs path).toList := by
        unfold collectJavaDirs
        rw [← hruntimes]
        refine entries_withSource hgathers ?_ hseen.2 _
        rw [hseen.1]
        decide
      have hplace : ∀ path e, readRuntime L D fs path = some e → e.source = .java ∧
          e.installLocation = some (D.fromUtf8Lossy path.written) := fun _ _ => readRuntime_place
      rw [hentries]
      exact forall₂_entries hplace _ hread

/-- **What is reported as complete is complete**: always for Python and for
Node.js, and for Java just where no failed query goes unnoticed. -/
theorem complete_is_honest (L : Libraries) (D : Decoders) (fs : FileSystem) (now : String)
    (dirs : List Path) :
    (ReportsComplete (collectPythonDirs L D fs now dirs) →
      Honest D fs .pip (distInfos fs dirs) (distInfoQueries fs dirs)
        (collectPythonDirs L D fs now dirs)) ∧
    (ReportsComplete (collectNodejsDirs L D fs now dirs) →
      Honest D fs .npm (nodePackages fs dirs) (nodePackageQueries fs dirs)
        (collectNodejsDirs L D fs now dirs)) ∧
    ((ReportsComplete (collectJavaDirs L D fs now dirs) →
      Honest D fs .java (runtimes fs dirs) (runtimeQueries fs dirs)
        (collectJavaDirs L D fs now dirs)) ↔
      (RuntimesSeen L D fs dirs → RuntimesAnswered fs dirs)) :=
  ⟨python_honest, nodejs_honest, java_honest_iff⟩

namespace Sample

/-- ASCII text, and no documents. -/
def ascii : Decoders where
  fromUtf8Lossy bytes := String.ofList (bytes.map fun b => Char.ofNat b.toNat)
  fromStr _ := none

/-- `/usr/lib/jvm`. -/
def jvm : Path := Path.join [] ["usr", "lib", "jvm"]

/-- A file system with one runtime, whose files can be asked for or not. -/
def oneRuntime (locked : Bool) : FileSystem where
  node path :=
    [(jvm, .dir [Json.bytes "jdk"]), (jvm.join ["jdk"], .dir [Json.bytes "release"]),
      (jvm.join ["jdk", "release"], .file (Json.bytes "JAVA_VERSION=\"21.0.2\""))].lookup path
  denied query path := locked && query == .stat && (jvm.join ["jdk"]).isPrefixOf path
    && path != jvm.join ["jdk"]
  canonicalize _ := none

/-- What is reported of it when they cannot be asked for. -/
def lockedReport : CollectorResult :=
  collectJavaDirs (libraries [] []) ascii (oneRuntime true) "2026-01-01T00:00:00Z" [jvm]

/-- A runtime in a directory that cannot be searched is left out of a report
that says it is complete. -/
theorem locked_runtime_hidden :
    ReportsComplete lockedReport ∧ lockedReport.entries = [] ∧
      runtimes (oneRuntime true) [jvm] = [jvm.join ["jdk"]] ∧
      ¬Honest ascii (oneRuntime true) .java (runtimes (oneRuntime true) [jvm])
        (runtimeQueries (oneRuntime true) [jvm]) lockedReport := by
  have hentries : lockedReport.entries = [] := by decide +kernel
  have hruntimes : runtimes (oneRuntime true) [jvm] = [jvm.join ["jdk"]] := by decide +kernel
  refine ⟨?_, hentries, hruntimes, fun h => ?_⟩
  · exact ⟨.new "2026-01-01T00:00:00Z" .java .complete none, by decide +kernel, rfl⟩
  · have hall := h.entries
    rw [hentries, hruntimes] at hall
    cases hall

/-- If it can be searched, the runtime is reported. -/
example : (collectJavaDirs (libraries [] []) ascii (oneRuntime false) "2026-01-01T00:00:00Z"
    [jvm]).entries.map (fun e => e.version) = [some "21.0.2"] := by decide +kernel

end Sample

end Lariska
