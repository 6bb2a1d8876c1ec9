import Lariska.Collectors
import Lariska.KeptEntries
import Lariska.OsRelease

/-!
# The packages of Linux

Three package managers may own packages of a host. Each is asked by a command,
where there is a database of its own or of none of them, and its output read
line by line. Its source is then reported once: complete where the command gave
an output, failed where it did not or where the database is there without the
command, and otherwise not applicable (`linux_report`).

What the command was asked to print is read as the packages it has listed
(`listing_read`), and no two of these packages become one entry of a snapshot
unless they agree in all that tells packages of the manager apart
(`listed_apart`).
-/

namespace Lariska

/-! ## Reading a listing -/

/-- `str::splitn`. -/
def splitn (separator : Char) : Nat → List Char → List (List Char)
  | 0, _ => []
  | 1, text => [text]
  | n + 2, text =>
    match splitOnce separator text with
    | none => [text]
    | some (field, rest) => field :: splitn separator (n + 1) rest

/-- `non_empty`. -/
def nonEmpty (value : List Char) : Option String :=
  if trimmed value = "" then none else some (trimmed value)

section Parsers

variable (L : Libraries)

/-- An entry of a package of the system. -/
def systemPackage (source : SoftwareSource) (name : List Char)
    (version publisher architecture : Option String) (privateInstance : List Char) :
    SoftwareEntry :=
  SoftwareEntry.withInstance L
    { name := String.ofList name
      version := version
      publisher := publisher
      architecture := architecture
      source := source
      installLocation := none
      productIdentity := none
      installationIdentity := none
      packageId := none
      scope := none
      installInstanceId := none }
    (some (String.ofList name)) .system (String.ofList privateInstance)

/-- The instance of a package whose manager prints fields separated by tabs. -/
def tabInstance (source : SoftwareSource) (name version architecture : List Char) : List Char :=
  source.asStr.toList ++ ':' :: (name ++ ':' :: (architecture ++ ':' ::
    if source = .rpm then version else []))

/-- A line of `parse_tab_separated`. -/
def parseTabLine (source : SoftwareSource) (line : List Char) : Option SoftwareEntry :=
  let fields := splitn '\t' 4 line
  fields.head?.bind fun name =>
    let version := fields[1]?
    let architecture := fields[2]?
    let publisher := fields[3]?
    if trim (String.ofList name) = [] then none
    else some (systemPackage L source name (version.bind nonEmpty) (publisher.bind nonEmpty)
      (architecture.bind nonEmpty)
      (tabInstance source name (version.getD []) (architecture.getD [])))

def parseTabSeparated (output : String) (source : SoftwareSource) : List SoftwareEntry :=
  (lines output).filterMap (parseTabLine L source)

/-- A line of the output of `pacman -Q`. -/
def parsePacmanLine (line : List Char) : Option SoftwareEntry :=
  let fields := splitn ' ' 2 line
  fields.head?.bind fun name =>
    if trim (String.ofList name) = [] then none
    else some (systemPackage L .pacman name (fields[1]?.bind nonEmpty) none none
      ("pacman:".toList ++ name))

def parsePacman (output : String) : List SoftwareEntry :=
  (lines output).filterMap (parsePacmanLine L)

/-! ## The collectors -/

inductive PackageManager where
  | dpkg | rpm | pacman
deriving DecidableEq

namespace PackageManager

/-- In the order in which they are asked. -/
def all : List PackageManager := [dpkg, rpm, pacman]

def source : PackageManager → SoftwareSource
  | dpkg => .dpkg
  | rpm => .rpm
  | pacman => .pacman

def program : PackageManager → String
  | dpkg => "dpkg-query"
  | rpm => "rpm"
  | pacman => "pacman"

/-- The entries of an output. -/
def parse : PackageManager → String → List SoftwareEntry
  | dpkg, output => parseTabSeparated L output .dpkg
  | rpm, output => parseTabSeparated L output .rpm
  | pacman, output => parsePacman L output

end PackageManager

/-- What comes of `run_command`. -/
inductive CommandResult where
  | output (text : String)
  | notFound
  | other (message : String)

/-- A host, as far as its package managers go. -/
structure LinuxHost where
  /-- `database_present`, of the paths of the manager. -/
  databasePresent : PackageManager → Bool
  command : PackageManager → CommandResult

def shouldProbeManager (itsDatabaseIsPresent anyDatabaseIsPresent : Bool) : Bool :=
  itsDatabaseIsPresent || !anyDatabaseIsPresent

/-- `collector_failure`. -/
def collectorFailure (collector message : String) : CollectorResult :=
  ⟨[], [collector ++ " collector failed: " ++ message], false, []⟩

variable (host : LinuxHost) (now : String)

/-- `collect_dpkg`, `collect_rpm` and `collect_pacman`. -/
def collectManager (m : PackageManager) : Option CollectorResult :=
  match host.command m with
  | .output text => some ⟨m.parse L text, [], true, []⟩
  | .notFound => none
  | .other message => some (collectorFailure m.program message)

def anyDatabase : Bool := PackageManager.all.any host.databasePresent

/-- One manager is asked. -/
def probeManager (state : CollectorResult × Bool) (m : PackageManager) : CollectorResult × Bool :=
  if shouldProbeManager (host.databasePresent m) (anyDatabase host) then
    match collectManager L host m with
    | some found => (state.1.merge (found.withSource now m.source), true)
    | none => state
  else state

/-- A source that has no state yet gets one. -/
def fillSource (result : CollectorResult) (m : PackageManager) : CollectorResult :=
  if result.sources.any fun state => state.source = m.source then result
  else result.merge (if host.databasePresent m then .failed now m.source "collector_missing"
    else .notApplicable now m.source)

/-- `collect`, at a time. -/
def collectLinux : CollectorResult :=
  let (result, anyManagerPresent) := PackageManager.all.foldl (probeManager L host now) (.empty, false)
  let result := PackageManager.all.foldl (fillSource host now) result
  if anyManagerPresent then result
  else result.markFailed "no supported Linux package manager (dpkg-query/rpm/pacman) was found"

end Parsers

/-! ## The report -/

section Report

variable (L : Libraries) (host : LinuxHost) (now : String)

/-- What becomes of a manager. -/
inductive ManagerOutcome where
  | listed (text : String)
  | failed
  /-- Its database is there, its command is not. -/
  | missing
  | notApplicable
deriving DecidableEq

def managerOutcome (m : PackageManager) : ManagerOutcome :=
  if shouldProbeManager (host.databasePresent m) (anyDatabase host) then
    match host.command m with
    | .output text => .listed text
    | .other _ => .failed
    | .notFound => if host.databasePresent m then .missing else .notApplicable
  else .notApplicable

namespace ManagerOutcome

/-- How its source is reported. -/
def state (m : PackageManager) : ManagerOutcome → CollectionSource
  | listed _ => .new now m.source .complete none
  | failed => .new now m.source .failed (some "collection_failed")
  | missing => .new now m.source .failed (some "collector_missing")
  | notApplicable => .new now m.source .notApplicable none

def entries (m : PackageManager) : ManagerOutcome → List SoftwareEntry
  | listed text => m.parse L text
  | _ => []

end ManagerOutcome

variable {L host now}

/-- A manager has answered, or failed to. -/
def ManagerOutcome.isFound : ManagerOutcome → Bool
  | listed _ | failed => true
  | missing | notApplicable => false

/-- The message of a failure is no diagnostic code. -/
theorem invalid_collectorFailure (collector message : String) :
    validDiagnosticCode (collector ++ " collector failed: " ++ message) = false := by
  have hblank : ∃ rest, Json.bytes " collector failed: " = 32 :: rest := ⟨_, rfl⟩
  obtain ⟨rest, hrest⟩ := hblank
  unfold validDiagnosticCode
  rw [Json.bytes_append, Json.bytes_append, hrest, List.all_append, List.all_append, List.all_cons,
    show ((Json.byte 'a' ≤ 32 && 32 ≤ Json.byte 'z') || isDigit 32 || 32 == Json.byte '_') = false
      from rfl]
  simp only [Bool.false_and, Bool.and_false]

/-- **One manager is asked**: what is found is merged, with the state of its source. -/
theorem probeManager_eq (L : Libraries) (host : LinuxHost) (now : String)
    (state : CollectorResult × Bool) (m : PackageManager) :
    (probeManager L host now state m).1.entries
        = state.1.entries ++ (managerOutcome host m).entries L m ∧
      (probeManager L host now state m).1.complete
        = (state.1.complete && managerOutcome host m ≠ .failed) ∧
      (probeManager L host now state m).1.sources = state.1.sources ++
        (if (managerOutcome host m).isFound then [(managerOutcome host m).state now m] else []) ∧
      (probeManager L host now state m).2 = (state.2 || (managerOutcome host m).isFound) := by
  have hnone : ∀ outcome : ManagerOutcome, outcome = .missing ∨ outcome = .notApplicable →
      state.1.entries = state.1.entries ++ outcome.entries L m ∧
        state.1.complete = (state.1.complete && outcome ≠ .failed) ∧
        state.1.sources = state.1.sources ++ (if outcome.isFound then [outcome.state now m] else []) ∧
        state.2 = (state.2 || outcome.isFound) := by
    rintro outcome (rfl | rfl) <;> exact ⟨(List.append_nil _).symm, (Bool.and_true _).symm,
      (List.append_nil _).symm, (Bool.or_false _).symm⟩
  unfold probeManager managerOutcome
  split
  · unfold collectManager
    cases hcommand : host.command m with
    | output text => exact ⟨rfl, rfl, rfl, (Bool.or_true _).symm⟩
    | other message =>
      have hcode : (collectorFailure m.program message).diagnosticCode
          = some "collection_failed" := by
        unfold collectorFailure CollectorResult.diagnosticCode
        rw [if_neg Bool.false_ne_true, List.reverse_singleton, List.find?_singleton,
          invalid_collectorFailure]
        rfl
      refine ⟨rfl, rfl, ?_, (Bool.or_true _).symm⟩
      show state.1.sources ++ ([] ++ [CollectionSource.new now m.source .failed
        (collectorFailure m.program message).diagnosticCode]) = _
      rw [hcode]
      rfl
    | notFound =>
      dsimp only
      cases host.databasePresent m with
      | true => exact hnone .missing (.inl rfl)
      | false => exact hnone .notApplicable (.inr rfl)
  · exact hnone .notApplicable (.inr rfl)

/-- What the managers that are asked leave. -/
theorem foldl_probeManager (L : Libraries) (host : LinuxHost) (now : String)
    (ms : List PackageManager) (state : CollectorResult × Bool) :
    (ms.foldl (probeManager L host now) state).1.entries
        = state.1.entries ++ ms.flatMap (fun m => (managerOutcome host m).entries L m) ∧
      (ms.foldl (probeManager L host now) state).1.complete
        = (state.1.complete && ms.all fun m => managerOutcome host m ≠ .failed) ∧
      (ms.foldl (probeManager L host now) state).1.sources = state.1.sources ++
        (ms.filter fun m => (managerOutcome host m).isFound).map (fun m =>
          (managerOutcome host m).state now m) ∧
      (ms.foldl (probeManager L host now) state).2
        = (state.2 || ms.any fun m => (managerOutcome host m).isFound) := by
  induction ms generalizing state with
  | nil => exact ⟨(List.append_nil _).symm, (Bool.and_true _).symm, (List.append_nil _).symm,
      (Bool.or_false _).symm⟩
  | cons m ms ih =>
    obtain ⟨hentries, hcomplete, hsources, hpresent⟩ := probeManager_eq L host now state m
    obtain ⟨hentries', hcomplete', hsources', hpresent'⟩ := ih (probeManager L host now state m)
    rw [List.foldl_cons, hentries', hcomplete', hsources', hpresent', hentries, hcomplete, hsources,
      hpresent, List.flatMap_cons, List.all_cons, List.any_cons, List.filter_cons,
      List.append_assoc, List.append_assoc, Bool.and_assoc, Bool.or_assoc]
    refine ⟨rfl, rfl, ?_, rfl⟩
    cases (managerOutcome host m).isFound <;> rfl

theorem PackageManager.source_inj {m m' : PackageManager} (h : m.source = m'.source) : m = m' := by
  revert h
  cases m <;> cases m' <;> decide

/-- A source has a state already. -/
def reported (r : CollectorResult) (m : PackageManager) : Bool :=
  r.sources.any fun state => state.source = m.source

/-- What a source that has no state yet is given. -/
def filled (host : LinuxHost) (m : PackageManager) : ManagerOutcome :=
  if host.databasePresent m then .missing else .notApplicable

theorem fillSource_eq (host : LinuxHost) (now : String) (r : CollectorResult) (m : PackageManager) :
    (fillSource host now r m).entries = r.entries ∧
      (fillSource host now r m).complete
        = (r.complete && (reported r m || !host.databasePresent m)) ∧
      (fillSource host now r m).sources
        = r.sources ++ if reported r m then [] else [(filled host m).state now m] := by
  unfold fillSource filled
  rw [show (r.sources.any fun state => state.source = m.source) = reported r m from rfl]
  cases reported r m with
  | true => exact ⟨rfl, (Bool.and_true _).symm, (List.append_nil _).symm⟩
  | false =>
    cases host.databasePresent m with
    | true => exact ⟨List.append_nil _, rfl, rfl⟩
    | false => exact ⟨List.append_nil _, rfl, rfl⟩

/-- What the sources that have no state yet are given, each for itself. -/
theorem foldl_fillSource (host : LinuxHost) (now : String) {ms : List PackageManager}
    (hms : ms.Nodup) (r : CollectorResult) :
    (ms.foldl (fillSource host now) r).entries = r.entries ∧
      (ms.foldl (fillSource host now) r).complete
        = (r.complete && ms.all fun m => reported r m || !host.databasePresent m) ∧
      (ms.foldl (fillSource host now) r).sources
        = r.sources ++ (ms.filter fun m => !reported r m).map fun m =>
          (filled host m).state now m := by
  induction ms generalizing r with
  | nil => exact ⟨rfl, (Bool.and_true _).symm, (List.append_nil _).symm⟩
  | cons m ms ih =>
    obtain ⟨hm, hms⟩ := List.nodup_cons.mp hms
    obtain ⟨hentries, hcomplete, hsources⟩ := fillSource_eq host now r m
    obtain ⟨hentries', hcomplete', hsources'⟩ := ih hms (fillSource host now r m)
    -- the state that is added is of this source only
    have hother : ∀ m' ∈ ms, reported (fillSource host now r m) m' = reported r m' := by
      intro m' hm'
      have hne : m.source ≠ m'.source := fun h => hm (PackageManager.source_inj h ▸ hm')
      have hstate : ((filled host m).state now m).source = m.source := by
        unfold filled
        cases host.databasePresent m <;> rfl
      unfold reported
      rw [hsources, List.any_append]
      split
      · exact Bool.or_false _
      · simp [hstate, hne]
    rw [List.foldl_cons, hentries', hcomplete', hsources', hentries, hcomplete, hsources]
    refine ⟨rfl, ?_, ?_⟩
    · rw [List.all_cons, Bool.and_assoc]
      congr 2
      rw [Bool.eq_iff_iff, List.all_eq_true, List.all_eq_true]
      exact forall₂_congr fun m' hm' => by rw [hother m' hm']
    · rw [List.append_assoc, List.filter_congr fun m' hm' => by rw [hother m' hm'],
        List.filter_cons]
      cases reported r m <;> rfl

theorem PackageManager.mem_all (m : PackageManager) : m ∈ all := by
  cases m <;> decide

@[simp] theorem ManagerOutcome.source_state (outcome : ManagerOutcome) (m : PackageManager) :
    (outcome.state now m).source = m.source := by
  cases outcome <;> rfl

/-- The sources that have a state once the managers are asked. -/
theorem reported_probed {r : CollectorResult} (h : r.sources
      = (PackageManager.all.filter fun m => (managerOutcome host m).isFound).map fun m =>
        (managerOutcome host m).state now m) (m : PackageManager) :
    reported r m = (managerOutcome host m).isFound := by
  unfold reported
  rw [h, Bool.eq_iff_iff, List.any_eq_true]
  constructor
  · rintro ⟨state, hstate, hsource⟩
    obtain ⟨m', hm', rfl⟩ := List.mem_map.mp hstate
    rw [decide_eq_true_eq, ManagerOutcome.source_state] at hsource
    exact PackageManager.source_inj hsource ▸ (List.mem_filter.mp hm').2
  · intro hfound
    refine ⟨_, List.mem_map_of_mem (List.mem_filter.mpr ⟨m.mem_all, hfound⟩), ?_⟩
    rw [decide_eq_true_eq, ManagerOutcome.source_state]

/-- Of a manager that has not been found it depends on its database what its
source is given. -/
theorem filled_eq {m : PackageManager} (h : (managerOutcome host m).isFound = false) :
    filled host m = managerOutcome host m := by
  unfold filled
  unfold managerOutcome at h ⊢
  split at h
  · next hprobe =>
    rw [if_pos hprobe]
    cases hcommand : host.command m with
    | output text =>
      rw [hcommand] at h
      cases h
    | other message =>
      rw [hcommand] at h
      cases h
    | notFound => rfl
  · next hprobe =>
    have habsent : host.databasePresent m = false := by
      unfold shouldProbeManager at hprobe
      simp only [Bool.or_eq_true, not_or, Bool.not_eq_true] at hprobe
      exact hprobe.1
    rw [if_neg hprobe, habsent]
    rfl

theorem found_or_absent_iff (m : PackageManager) :
    ((managerOutcome host m).isFound || !host.databasePresent m) = true
      ↔ managerOutcome host m ≠ .missing := by
  cases hfound : (managerOutcome host m).isFound with
  | true =>
    refine iff_of_true rfl fun hmissing => ?_
    rw [hmissing] at hfound
    cases hfound
  | false =>
    rw [← filled_eq hfound]
    unfold filled
    cases host.databasePresent m <;> simp

/-- **Each source is reported once**, as its manager fared; the entries are those
of the outputs, and the report is complete if there was an output, no command
failed, and none was missing where its database is there. -/
theorem linux_report (L : Libraries) (host : LinuxHost) (now : String) :
    (collectLinux L host now).sources.Perm
        (PackageManager.all.map fun m => (managerOutcome host m).state now m) ∧
      (collectLinux L host now).entries
        = PackageManager.all.flatMap (fun m => (managerOutcome host m).entries L m) ∧
      ((collectLinux L host now).complete = true ↔
        (∀ m, managerOutcome host m ≠ .failed ∧ managerOutcome host m ≠ .missing) ∧
          ∃ m text, managerOutcome host m = .listed text) := by
  obtain ⟨hentries, hcomplete, hsources, hpresent⟩ := foldl_probeManager L host now
    PackageManager.all (.empty, false)
  obtain ⟨hentries', hcomplete', hsources'⟩ := foldl_fillSource host now
    (show PackageManager.all.Nodup by decide)
    (PackageManager.all.foldl (probeManager L host now) (.empty, false)).1
  simp only [reported_probed hsources] at hcomplete' hsources'
  rw [hentries] at hentries'
  rw [hcomplete] at hcomplete'
  rw [hsources] at hsources'
  unfold collectLinux
  dsimp only
  rw [hpresent]
  have hperm : (PackageManager.all.foldl (fillSource host now)
      (PackageManager.all.foldl (probeManager L host now) (.empty, false)).1).sources.Perm
        (PackageManager.all.map fun m => (managerOutcome host m).state now m) := by
    have hfilled : (PackageManager.all.filter fun m => !(managerOutcome host m).isFound).map
        (fun m => (filled host m).state now m)
          = (PackageManager.all.filter fun m => !(managerOutcome host m).isFound).map fun m =>
            (managerOutcome host m).state now m :=
      List.map_congr_left fun m hm => by
        rw [filled_eq (by simpa using (List.mem_filter.mp hm).2)]
    rw [hsources', hfilled, List.append_assoc, ← List.map_append]
    exact (List.filter_append_perm _ _).map _
  refine ⟨?_, ?_, ?_⟩
  · split
    · exact hperm
    · exact hperm
  · split
    · exact hentries'
    · exact hentries'
  · split
    · next hany =>
      obtain ⟨m, -, hm⟩ := List.any_eq_true.mp hany
      rw [hcomplete']
      simp only [Bool.and_eq_true, List.all_eq_true, found_or_absent_iff, decide_eq_true_eq]
      constructor
      · rintro ⟨⟨-, hfailed⟩, hmissing⟩
        refine ⟨fun m => ⟨hfailed m m.mem_all, hmissing m m.mem_all⟩, m, ?_⟩
        cases houtcome : managerOutcome host m with
        | listed text => exact ⟨text, rfl⟩
        | failed => exact absurd houtcome (hfailed m m.mem_all)
        | missing =>
          rw [houtcome] at hm
          cases hm
        | notApplicable =>
          rw [houtcome] at hm
          cases hm
      · rintro ⟨hall, -⟩
        exact ⟨⟨rfl, fun m _ => (hall m).1⟩, fun m _ => (hall m).2⟩
    · next hnone =>
      refine iff_of_false Bool.false_ne_true ?_
      rintro ⟨-, m, text, hlisted⟩
      refine hnone (List.any_eq_true.mpr ⟨m, m.mem_all, ?_⟩)
      rw [hlisted]
      rfl

end Report

/-! ## Listings -/

/-- A package as its manager knows it. -/
structure Installed where
  name : List Char
  version : List Char
  architecture : List Char
  publisher : List Char

namespace PackageManager

/-- A line of the listing the manager is asked for. -/
def written : PackageManager → Installed → List Char
  | dpkg, p | rpm, p =>
    p.name ++ '\t' :: (p.version ++ '\t' :: (p.architecture ++ '\t' :: p.publisher))
  | pacman, p => p.name ++ ' ' :: p.version

/-- The listing. -/
def listing (m : PackageManager) (ps : List Installed) : String :=
  String.ofList (ps.flatMap fun p => m.written p ++ ['\n'])

/-- What the fields of a line end with, and the last does not. -/
def separator : PackageManager → Char
  | dpkg | rpm => '\t'
  | pacman => ' '

/-- What tells packages of the manager apart. -/
def privateInstance : PackageManager → Installed → List Char
  | dpkg, p => tabInstance .dpkg p.name p.version p.architecture
  | rpm, p => tabInstance .rpm p.name p.version p.architecture
  | pacman, p => "pacman:".toList ++ p.name

/-- The entry of a package. -/
def entry (L : Libraries) : PackageManager → Installed → SoftwareEntry
  | pacman, p => systemPackage L .pacman p.name (nonEmpty p.version) none none
      (pacman.privateInstance p)
  | m, p => systemPackage L m.source p.name (nonEmpty p.version) (nonEmpty p.publisher)
      (nonEmpty p.architecture) (m.privateInstance p)

end PackageManager

/-- A package has a name, and no field with a character its line is cut at. -/
structure Installed.Printable (m : PackageManager) (p : Installed) : Prop where
  named : trim (String.ofList p.name) ≠ []
  fields : ∀ field ∈ [p.name, p.version, p.architecture, p.publisher], '\n' ∉ field
  name : m.separator ∉ p.name
  version : m ≠ .pacman → '\t' ∉ p.version
  architecture : m ≠ .pacman → '\t' ∉ p.architecture

/-- The line without a carriage return at its end. -/
def stripReturn (line : List Char) : List Char :=
  if line.getLast? = some '\r' then line.dropLast else line

theorem stripReturn_append {c : Char} (hc : c ≠ '\r') (front back : List Char) :
    stripReturn (front ++ c :: back) = front ++ c :: stripReturn back := by
  unfold stripReturn
  cases back with
  | nil =>
    rw [List.getLast?_append, List.getLast?_singleton, Option.some_or,
      if_neg fun h => hc (Option.some.inj h)]
    rfl
  | cons b back =>
    rw [List.getLast?_append, List.getLast?_cons_cons, List.dropLast_append_of_ne_nil (by simp),
      List.dropLast_cons_of_ne_nil (List.cons_ne_nil b back)]
    cases hlast : (b :: back).getLast? with
    | none => exact absurd (List.getLast?_eq_none_iff.mp hlast) (List.cons_ne_nil b back)
    | some d =>
      rw [Option.some_or]
      split <;> rfl

/-- A carriage return is a blank. -/
theorem trim_stripReturn (line : List Char) :
    trim (String.ofList (stripReturn line)) = trim (String.ofList line) := by
  unfold stripReturn
  split
  · next hreturn =>
    have hline : line = line.dropLast ++ ['\r'] := by
      rw [List.dropLast_append_getLast?]
      exact hreturn
    have hblank : ∀ c ∈ ['\r'], isWhitespace c = true := List.all_eq_true.mp rfl
    have hpadded := @trim_padded [] line.dropLast ['\r'] (fun _ h => (by cases h)) hblank
    rw [List.nil_append, ← hline] at hpadded
    exact hpadded.symm
  · rfl

theorem nonEmpty_stripReturn (line : List Char) : nonEmpty (stripReturn line) = nonEmpty line := by
  unfold nonEmpty trimmed
  rw [trim_stripReturn]

/-- **Lines are read back**, each without a carriage return at its end. -/
theorem lines_written {texts : List (List Char)} (h : ∀ text ∈ texts, '\n' ∉ text) :
    lines (String.ofList (texts.flatMap fun text => text ++ ['\n'])) = texts.map stripReturn := by
  have hwritten : texts.flatMap (fun text => text ++ ['\n'])
      = ['\n'].intercalate (texts ++ [[]]) := by
    clear h
    induction texts with
    | nil => rfl
    | cons text texts ih =>
      rw [List.flatMap_cons, ih]
      cases texts with
      | nil => simp
      | cons text' texts => simp
  have hall : ∀ text ∈ texts ++ [[]], '\n' ∉ text := by
    intro text htext
    obtain htext | htext := List.mem_append.mp htext
    · exact h text htext
    · rw [List.mem_singleton.mp htext]
      exact List.not_mem_nil
  unfold lines
  rw [String.toList_ofList, hwritten, List.splitOn_intercalate '\n' hall (by simp)]
  dsimp only
  rw [List.dropLast_concat, List.getLast?_concat, Option.filter_some_neg (by decide),
    Option.toList_none, List.append_nil]
  rfl

/-- A field ends where the separator stands. -/
theorem splitOnce_field {separator : Char} {field : List Char} (h : separator ∉ field)
    (rest : List Char) : splitOnce separator (field ++ separator :: rest) = some (field, rest) := by
  have hfield : ∀ c ∈ field, decide (c ≠ separator) = true := fun c hc =>
    decide_eq_true fun heq => h (heq ▸ hc)
  unfold splitOnce
  rw [List.dropWhile_append_of_pos hfield, List.takeWhile_append_of_pos hfield,
    List.dropWhile_cons_of_neg (by simp), List.takeWhile_cons_of_neg (by simp), List.append_nil]

theorem splitn_field {separator : Char} {field : List Char} (h : separator ∉ field) (n : Nat)
    (rest : List Char) : splitn separator (n + 2) (field ++ separator :: rest)
      = field :: splitn separator (n + 1) rest := by
  rw [splitn, splitOnce_field h]

/-- A line of tab-separated fields is read as its package. -/
theorem parseTabLine_written (L : Libraries) {m : PackageManager} (hm : m ≠ .pacman)
    {p : Installed} (h : p.Printable m) :
    parseTabLine L m.source (stripReturn (m.written p)) = some (m.entry L p) := by
  have hwritten : m.written p
      = p.name ++ '\t' :: (p.version ++ '\t' :: (p.architecture ++ '\t' :: p.publisher)) := by
    cases m with
    | dpkg | rpm => rfl
    | pacman => exact absurd rfl hm
  have hname : '\t' ∉ p.name := by
    have hplain := h.name
    cases m with
    | dpkg | rpm => exact hplain
    | pacman => exact absurd rfl hm
  have hsplit : splitn '\t' 4 (stripReturn (m.written p))
      = [p.name, p.version, p.architecture, stripReturn p.publisher] := by
    rw [hwritten, stripReturn_append (by decide), stripReturn_append (by decide),
      stripReturn_append (by decide), splitn_field hname, splitn_field (h.version hm),
      splitn_field (h.architecture hm)]
    rfl
  have hentry : m.entry L p = systemPackage L m.source p.name (nonEmpty p.version)
      (nonEmpty p.publisher) (nonEmpty p.architecture)
      (tabInstance m.source p.name p.version p.architecture) := by
    cases m with
    | dpkg | rpm => rfl
    | pacman => exact absurd rfl hm
  unfold parseTabLine
  rw [hsplit, hentry]
  simp only [List.head?_cons, Option.bind_some, List.getElem?_cons_succ, List.getElem?_cons_zero,
    Option.getD_some, nonEmpty_stripReturn, if_neg h.named]

theorem parsePacmanLine_written (L : Libraries) {p : Installed} (h : p.Printable .pacman) :
    parsePacmanLine L (stripReturn (PackageManager.pacman.written p))
      = some (PackageManager.pacman.entry L p) := by
  have hsplit : splitn ' ' 2 (stripReturn (PackageManager.pacman.written p))
      = [p.name, stripReturn p.version] := by
    have hname : ' ' ∉ p.name := h.name
    show splitn ' ' 2 (stripReturn (p.name ++ ' ' :: p.version)) = _
    rw [stripReturn_append (by decide), splitn_field hname]
    rfl
  have hentry : PackageManager.pacman.entry L p = systemPackage L .pacman p.name
      (nonEmpty p.version) none none ("pacman:".toList ++ p.name) := rfl
  unfold parsePacmanLine
  rw [hsplit, hentry]
  simp only [List.head?_cons, Option.bind_some, List.getElem?_cons_succ, List.getElem?_cons_zero,
    nonEmpty_stripReturn, if_neg h.named]

/-- **A listing is read as the packages it lists**, each as its entry and in
their order. -/
theorem listing_read (L : Libraries) (m : PackageManager) {ps : List Installed}
    (h : ∀ p ∈ ps, p.Printable m) : m.parse L (m.listing ps) = ps.map (m.entry L) := by
  have hlines : lines (m.listing ps) = (ps.map m.written).map stripReturn := by
    have hflat : ps.flatMap (fun p => m.written p ++ ['\n'])
        = (ps.map m.written).flatMap fun text => text ++ ['\n'] := by
      rw [List.flatMap_map]
    unfold PackageManager.listing
    rw [hflat, lines_written]
    intro text htext
    obtain ⟨p, hp, rfl⟩ := List.mem_map.mp htext
    have hfields := (h p hp).fields
    simp only [List.forall_mem_cons, List.not_mem_nil, false_implies, implies_true, and_true]
      at hfields
    obtain ⟨hname, hversion, harchitecture, hpublisher⟩ := hfields
    cases m <;> simp [PackageManager.written, *]
  have hread : ∀ {parseLine : List Char → Option SoftwareEntry},
      (∀ p ∈ ps, parseLine (stripReturn (m.written p)) = some (m.entry L p)) →
        (lines (m.listing ps)).filterMap parseLine = ps.map (m.entry L) := by
    intro parseLine hline
    rw [hlines, List.map_map, List.filterMap_map, ← List.filterMap_eq_map]
    exact List.filterMap_congr hline
  cases m with
  | dpkg => exact hread fun p hp => parseTabLine_written L (by decide) (h p hp)
  | rpm => exact hread fun p hp => parseTabLine_written L (by decide) (h p hp)
  | pacman => exact hread fun p hp => parsePacmanLine_written L (h p hp)

/-! ## From a listing to a snapshot -/

/-- A field is told from what follows it. -/
theorem field_inj {separator : Char} {field field' rest rest' : List Char} (h : separator ∉ field)
    (h' : separator ∉ field') (heq : field ++ separator :: rest = field' ++ separator :: rest') :
    field = field' ∧ rest = rest' := by
  have hsplit := congrArg (splitOnce separator) heq
  rw [splitOnce_field h, splitOnce_field h'] at hsplit
  exact Prod.mk.inj (Option.some.inj hsplit)

/-- Two packages of a manager are told apart by these. -/
def PackageManager.SamePackage (m : PackageManager) (p q : Installed) : Prop :=
  p.name = q.name ∧ (m ≠ .pacman → p.architecture = q.architecture) ∧
    (m = .rpm → p.version = q.version)

theorem samePackage_of_privateInstance {m : PackageManager} {p q : Installed}
    (hp : m ≠ .pacman → ':' ∉ p.name ∧ ':' ∉ p.architecture)
    (hq : m ≠ .pacman → ':' ∉ q.name ∧ ':' ∉ q.architecture)
    (h : m.privateInstance p = m.privateInstance q) : m.SamePackage p q := by
  cases m with
  | pacman =>
    refine ⟨List.append_cancel_left h, fun hne => absurd rfl hne, fun heq => by cases heq⟩
  | dpkg =>
    obtain ⟨hname, harchitecture⟩ := hp (by decide)
    obtain ⟨hname', harchitecture'⟩ := hq (by decide)
    obtain ⟨hnames, hrest⟩ := field_inj hname hname' (List.cons.inj (List.append_cancel_left h)).2
    obtain ⟨harchitectures, -⟩ := field_inj harchitecture harchitecture' hrest
    exact ⟨hnames, fun _ => harchitectures, fun heq => by cases heq⟩
  | rpm =>
    obtain ⟨hname, harchitecture⟩ := hp (by decide)
    obtain ⟨hname', harchitecture'⟩ := hq (by decide)
    obtain ⟨hnames, hrest⟩ := field_inj hname hname' (List.cons.inj (List.append_cancel_left h)).2
    obtain ⟨harchitectures, hversions⟩ := field_inj harchitecture harchitecture' hrest
    exact ⟨hnames, fun _ => harchitectures, fun _ => hversions⟩

section Kept

variable {L : Libraries} {m : PackageManager}

theorem entry_name (p : Installed) : (m.entry L p).name = String.ofList p.name := by
  cases m <;> rfl

theorem entry_new (p : Installed) : (m.entry L p).installationIdentity = none := by
  cases m <;> rfl

/-- The instance a package is collected with. -/
theorem entry_instance (p : Installed) :
    ((m.entry L p).normalize.prepare L).installInstanceId
      = some (hashIdentity L ["lariska-install-instance-v2", String.ofList (m.privateInstance p)]) := by
  cases m <;> rfl

namespace InventorySnapshot

variable {s : InventorySnapshot}

/-- An entry with a name has one that is kept for it. -/
theorem existsUnique_kept
    (hhash : s.schemaVersion = inventorySchemaVersion → L.Separates (s.hashedParts L))
    {raw : SoftwareEntry} (hraw : raw ∈ s.software) (hname : trim raw.name ≠ []) :
    ∃! e, e ∈ (s.normalize L).software ∧
      SameGroup L s.schemaVersion e (prepareEntry L s.schemaVersion s.agentId raw) := by
  have hp : prepareEntry L s.schemaVersion s.agentId raw ∈ s.prepared L := by
    rw [prepared_eq]
    exact List.mem_map_of_mem (List.mem_filter.mpr ⟨hraw, by simpa using hname⟩)
  have hprepared : ∀ e ∈ (s.normalize L).software, e ∈ s.prepared L := by
    intro e he
    rw [normalize_software] at he
    exact (Survivors.isBest_of_mem he).1
  obtain ⟨e, he, hkey⟩ := Survivors.exists_survivor (entryKey L s.schemaVersion) (entryRank L) hp
  rw [← normalize_software] at he
  refine ⟨e, ⟨he, (entryKey_eq_iff hhash (hprepared e he) hp).mp hkey⟩, ?_⟩
  rintro e' ⟨he', hsame⟩
  exact s.eq_of_entryKey he' he
    (((entryKey_eq_iff hhash (hprepared e' he') hp).mpr hsame).trans hkey.symm)

end InventorySnapshot

/-- **No installed package is lost**: of a listing that is read into a snapshot
of schema version 2, each package has the one entry that is kept for it, and
packages that their manager tells apart have not the same one, as long as none
of what is hashed collides. -/
theorem listed_apart {ps : List Installed} {s : InventorySnapshot}
    (hversion : s.schemaVersion = inventorySchemaVersion)
    (hprintable : ∀ p ∈ ps, p.Printable m)
    (hsoftware : ∀ e ∈ m.parse L (m.listing ps), e ∈ s.software)
    (hcolon : m ≠ .pacman → ∀ p ∈ ps, ':' ∉ p.name ∧ ':' ∉ p.architecture)
    (hhash : L.Separates (s.hashedParts L))
    (hinstance : L.Separates (ps.map fun p =>
      ["lariska-install-instance-v2", String.ofList (m.privateInstance p)])) :
    ∀ p ∈ ps,
      (∃! e, e ∈ (s.normalize L).software ∧ InventorySnapshot.SameGroup L s.schemaVersion e
        (InventorySnapshot.prepareEntry L s.schemaVersion s.agentId (m.entry L p))) ∧
      ∀ q ∈ ps, ∀ e ∈ (s.normalize L).software,
        InventorySnapshot.SameGroup L s.schemaVersion e
            (InventorySnapshot.prepareEntry L s.schemaVersion s.agentId (m.entry L p)) →
          InventorySnapshot.SameGroup L s.schemaVersion e
              (InventorySnapshot.prepareEntry L s.schemaVersion s.agentId (m.entry L q)) →
            m.SamePackage p q := by
  have hmem : ∀ p ∈ ps, m.entry L p ∈ s.software := fun p hp => by
    refine hsoftware _ ?_
    rw [listing_read L m hprintable]
    exact List.mem_map_of_mem hp
  intro p hp
  refine ⟨InventorySnapshot.existsUnique_kept (fun _ => hhash) (hmem p hp) ?_, ?_⟩
  · rw [entry_name]
    exact (hprintable p hp).named
  · intro q hq e _ hep heq
    unfold InventorySnapshot.SameGroup at hep heq
    rw [if_pos hversion, hversion] at hep heq
    have hsame := (InventorySnapshot.sameInstallation_iff hhash (hmem p hp) (hmem q hq)
      (entry_new p) (entry_new q)).mp (hep.symm.trans heq)
    have hids : ((m.entry L p).normalize.prepare L).installInstanceId
        = ((m.entry L q).normalize.prepare L).installInstanceId :=
      congrArg (fun i : String × Option String × Option InstallationScope × Option String =>
        i.2.2.2) hsame
    rw [entry_instance, entry_instance, Option.some_inj,
      hinstance.inj (List.mem_map_of_mem hp) (List.mem_map_of_mem hq)] at hids
    refine samePackage_of_privateInstance (fun hm => hcolon hm p hp) (fun hm => hcolon hm q hq) ?_
    exact String.ofList_injective (List.cons.inj (List.cons.inj hids).2).1

end Kept

namespace Sample

/-- A digit, so often that it is a digest. -/
def repeated (n : Nat) : String :=
  String.ofList (List.replicate 64 (Char.ofNat (Json.hexDigit n).toNat))

theorem sha256Hex_repeated : ∀ n < 13, sha256Hex (repeated n) = true := by decide

/-- A digest that takes the bytes for the digits of a number. -/
def byNumber : Libraries :=
  { libraries [] [] with
    sha256 := fun bytes => repeated (bytes.foldl (fun n b => 10 * n + b.toNat) 0 % 13)
    sha256_hex := fun _ => sha256Hex_repeated _ (Nat.mod_lt _ (by decide)) }

def curl (architecture : String) : Installed where
  name := "curl".toList
  version := "8.5.0-2ubuntu10".toList
  architecture := architecture.toList
  publisher := "Canonical".toList

/-- One package, for two architectures. -/
def curls : List Installed := [curl "amd64", curl "armhf"]

def curlsListed : InventorySnapshot :=
  InventorySnapshot.build inventorySchemaVersion collection
    (PackageManager.dpkg.parse byNumber (PackageManager.dpkg.listing curls)) []

theorem curls_printable : ∀ p ∈ curls, p.Printable .dpkg := by
  intro p hp
  simp only [curls, List.mem_cons, List.not_mem_nil, or_false] at hp
  obtain rfl | rfl := hp
  · exact ⟨by decide, by decide, by decide, fun _ => (by decide), fun _ => (by decide)⟩
  · exact ⟨by decide, by decide, by decide, fun _ => (by decide), fun _ => (by decide)⟩

set_option maxRecDepth 8000 in
/-- Both are kept. -/
theorem curls_kept : ∃! e, e ∈ (curlsListed.normalize byNumber).software ∧
    InventorySnapshot.SameGroup byNumber inventorySchemaVersion e
      (InventorySnapshot.prepareEntry byNumber inventorySchemaVersion curlsListed.agentId
        (PackageManager.dpkg.entry byNumber (curl "amd64"))) :=
  (listed_apart (L := byNumber) (m := .dpkg) (s := curlsListed) rfl curls_printable
    (fun _ he => he) (fun _ => by decide) ⟨by decide, by decide⟩ ⟨by decide, by decide⟩
    (curl "amd64") List.mem_cons_self).1

end Sample

end Lariska
