import Lariska.Gathering
import Lariska.LeafSignature
import Lariska.LinuxPackages
import Lariska.UpdateIdentifiers

/-!
# The software of Windows

What is installed on Windows is read from the registry: the uninstall keys of
the machine and of every profile that is loaded, in two views each, and the
packages of the servicing stack. Any of the reads may fail. The collection then
goes on without what it could not read, and its source is no longer complete.
Nor is it where a profile is not loaded, since what is installed for its user
cannot be seen.

Whatever fails, the entries are those of the uninstall keys and of the updates
that were read, and the two sources of the uninstall keys are complete exactly
where nothing failed and no profile was missing (`windows_report`).
-/

namespace Lariska

/-! ## The registry -/

/-- Why the registry did not answer. -/
structure RegError where
  notFound : Bool
  message : String

/-- A key, by the names it has been opened by. -/
abbrev RegKey := List String

/-- The registry, with all its answers. -/
structure Registry where
  /-- Why a subkey cannot be opened, where it cannot. -/
  refused : RegKey → String → Option RegError
  enumKeys : RegKey → List (Except RegError String)
  getString : RegKey → String → Except RegError String
  getU32 : RegKey → String → Except RegError UInt32

def hkeyLocalMachine : RegKey := ["HKEY_LOCAL_MACHINE"]
def hkeyUsers : RegKey := ["HKEY_USERS"]

/-- `UNINSTALL_KEYS`: a view and its architecture. -/
def uninstallKeys : List (String × String) :=
  [("SOFTWARE\\Microsoft\\Windows\\CurrentVersion\\Uninstall", "x86_64"),
    ("SOFTWARE\\WOW6432Node\\Microsoft\\Windows\\CurrentVersion\\Uninstall", "x86")]

def userUninstallKeys : List (String × String) :=
  [("Software\\Microsoft\\Windows\\CurrentVersion\\Uninstall", "x86_64"),
    ("Software\\WOW6432Node\\Microsoft\\Windows\\CurrentVersion\\Uninstall", "x86")]

/-- `CBS_PACKAGES`. -/
def cbsPackages : String :=
  "SOFTWARE\\Microsoft\\Windows\\CurrentVersion\\Component Based Servicing\\Packages"

def cbsStateInstalled : UInt32 := 112

def profileListKey : String := "SOFTWARE\\Microsoft\\Windows NT\\CurrentVersion\\ProfileList"

def isUserProfileSid (name : String) : Bool :=
  "S-1-5-21".toList.isPrefixOf name.toList && !"_Classes".toList.isSuffixOf name.toList

def looksLikeProductGuid (name : String) : Bool :=
  let trimmed := trim name
  utf8Length trimmed = 38 && trimmed.head? = some '\x7b' && trimmed.getLast? = some '\x7d'
    && (trimmed.drop 1).dropLast.all fun c => isAsciiHexdigit c || c = '-'

/-! ## The collection -/

section Collector

variable (L : Libraries) (reg : Registry)

def isMsiEntry (subkey : RegKey) (keyName : String) : Bool :=
  if (reg.getU32 subkey "WindowsInstaller").toOption = some 1 then true
  else looksLikeProductGuid keyName

/-- `read_optional_string`, with what it says when it fails. -/
def readOptionalString (key : RegKey) (name : String) : Option String × Gathered SoftwareEntry :=
  match reg.getString key name with
  | .ok value => (some value, .nothing)
  | .error error =>
    if error.notFound then (none, .nothing) else (none, .failed "registry_value_unreadable")

/-- A value that is not blank. -/
def readNonEmpty (key : RegKey) (name : String) : Option String :=
  (readOptionalString reg key name).1.bind fun value => nonEmpty value.toList

/-- The entry of an uninstall key, which has one if it has a name to display. -/
def uninstallEntry (uninstallKey : RegKey) (architecture : String) (scope : InstallationScope)
    (privateContext name : String) : Option SoftwareEntry :=
  let subkey := uninstallKey ++ [name]
  let msi := isMsiEntry reg subkey name
  (readNonEmpty reg subkey "DisplayName").map fun displayName =>
    SoftwareEntry.withInstance L
      { name := displayName
        version := readNonEmpty reg subkey "DisplayVersion"
        publisher := readNonEmpty reg subkey "Publisher"
        architecture := some architecture
        source := if msi then .msi else .winreg
        installLocation := readNonEmpty reg subkey "InstallLocation"
        productIdentity := none
        installationIdentity := none
        packageId := none
        scope := none
        installInstanceId := none }
      (if msi then some name else none) scope
      (privateContext ++ ":" ++ architecture ++ ":" ++ name)

/-- One turn of the loop of `collect_from_key`. -/
def collectSubkey (uninstallKey : RegKey) (architecture : String) (scope : InstallationScope)
    (privateContext : String) : Except RegError String → Gathered SoftwareEntry
  | .error error => .failed s!"failed to enumerate uninstall subkey: {error.message}"
  | .ok name =>
    match reg.refused uninstallKey name with
    | some error => .failed s!"failed to open uninstall entry {name}: {error.message}"
    | none =>
      let read := fun value => (readOptionalString reg (uninstallKey ++ [name]) value).2
      match uninstallEntry L reg uninstallKey architecture scope privateContext name with
      | none => read "DisplayName"
      | some entry =>
        (((read "DisplayName").and (read "DisplayVersion")).and
          ((read "Publisher").and (read "InstallLocation"))).and (.one entry)

def collectFromKey (uninstallKey : RegKey) (architecture : String) (scope : InstallationScope)
    (privateContext : String) : Gathered SoftwareEntry :=
  .all (collectSubkey L reg uninstallKey architecture scope privateContext)
    (reg.enumKeys uninstallKey)

/-- A view of a hive, which need not be there. -/
def collectView (hive : RegKey) (view : String × String) (scope : InstallationScope)
    (privateContext unreadable : String) : Gathered SoftwareEntry :=
  match reg.refused hive view.1 with
  | none => collectFromKey L reg (hive ++ [view.1]) view.2 scope privateContext
  | some error => if error.notFound then .nothing else .failed s!"{unreadable}: {error.message}"

/-- A view of the machine. -/
def collectMachineView (view : String × String) : Gathered SoftwareEntry :=
  collectView L reg hkeyLocalMachine view .system view.1 s!"failed to open {view.1}"

/-- A view of a profile. -/
def collectUserView (name : String) (view : String × String) : Gathered SoftwareEntry :=
  collectView L reg (hkeyUsers ++ [name]) view .user (name ++ ":" ++ view.1)
    s!"failed to open {view.1} for user profile {name}"

/-- One turn of the loop over the hives of users. -/
def collectHive : Except RegError String → Gathered SoftwareEntry
  | .error error => .failed s!"failed to enumerate a user profile hive: {error.message}"
  | .ok name =>
    if ¬ isUserProfileSid name then .nothing
    else match reg.refused hkeyUsers name with
      | some error => .failed s!"failed to open user profile hive {name}: {error.message}"
      | none => .all (collectUserView L reg name) userUninstallKeys

/-- The profile that such a turn adds to those that are loaded. -/
def loadedProfile : Except RegError String → Option String
  | .error _ => none
  | .ok name => if isUserProfileSid name ∧ reg.refused hkeyUsers name = none then some name else none

/-- A profile that is not loaded. -/
def inactiveProfile (profiles : List String) : Except RegError String → Bool
  | .error _ => false
  | .ok sid => isUserProfileSid sid && !profiles.contains sid

/-- One turn of the loop over the profiles of the machine. -/
def checkProfile (profiles : List String) (profile : Except RegError String) :
    Gathered SoftwareEntry :=
  match profile with
  | .error _ => .failed "user profile list unreadable"
  | .ok _ => if inactiveProfile profiles profile then
      .warned "an inactive user profile was not collected" else .nothing

def collectProfileList (profiles : List String) : Gathered SoftwareEntry × Bool :=
  match reg.refused hkeyLocalMachine profileListKey with
  | none =>
    let listed := reg.enumKeys (hkeyLocalMachine ++ [profileListKey])
    (.all (checkProfile profiles) listed, listed.any (inactiveProfile profiles))
  | some error =>
    (if error.notFound then .nothing else .failed "user profile list unreadable", false)

/-- `collect_user_scope`, and whether a profile is inactive. -/
def collectUserScope : Gathered SoftwareEntry × Bool :=
  let profiles := (reg.enumKeys hkeyUsers).filterMap (loadedProfile reg)
  let listed := collectProfileList reg profiles
  ((Gathered.all (collectHive L reg) (reg.enumKeys hkeyUsers)).and listed.1, listed.2)

/-- The entry of an update. -/
def updateEntry (kb : String) : SoftwareEntry :=
  systemPackage L .kb kb.toList none (some "Microsoft Corporation") none kb.toList

/-- One turn of the loop of `collect_updates`, with the updates seen so far. -/
def collectPackage (packages : RegKey) (seen : List String) :
    Except RegError String → Gathered SoftwareEntry × List String
  | .error error => (.failed s!"failed to enumerate an installed update: {error.message}", seen)
  | .ok name =>
    match kbIdFromPackageName name with
    | none => (.nothing, seen)
    | some kb =>
      if kb ∈ seen then (.nothing, seen)
      else match reg.refused packages name with
        | some error => (.failed s!"failed to open installed update {name}: {error.message}", seen)
        | none =>
          match reg.getU32 (packages ++ [name]) "CurrentState" with
          | .ok state =>
            if state = cbsStateInstalled then (.one (updateEntry L kb), kb :: seen)
            else (.nothing, seen)
          | .error _ => (.failed "registry_value_unreadable", seen)

def collectPackages (packages : RegKey) :
    List String → List (Except RegError String) → Gathered SoftwareEntry × List String
  | seen, [] => (.nothing, seen)
  | seen, name :: names =>
    let found := collectPackage L reg packages seen name
    let rest := collectPackages packages found.2 names
    (found.1.and rest.1, rest.2)

def collectUpdates : Gathered SoftwareEntry :=
  match reg.refused hkeyLocalMachine cbsPackages with
  | some error =>
    if error.notFound then .warned "Component Based Servicing has no package list"
    else .failed s!"failed to read installed updates: {error.message}"
  | none =>
    let packages := hkeyLocalMachine ++ [cbsPackages]
    let found := collectPackages L reg packages [] (reg.enumKeys packages)
    if found.2 = [] then
      found.1.and (.warned "no installed updates found under Component Based Servicing")
    else found.1

/-- What the uninstall keys give. -/
def collectUninstalls : Gathered SoftwareEntry :=
  (Gathered.all (collectMachineView L reg) uninstallKeys).and (collectUserScope L reg).1

/-- `source_state`, among the entries. -/
def sourceState (now : String) (entries : List SoftwareEntry) (source : SoftwareSource)
    (healthy gap : Bool) : CollectionSource :=
  .new now source
    (if healthy && !gap then .complete
      else if entries.any fun entry => entry.source = source then .partialResult else .failed)
    (if !healthy then some "collection_failed"
      else if gap then some "inactive_user_profile" else none)

def collectSync (now : String) : CollectorResult :=
  let registry := collectUninstalls L reg
  let inactiveProfiles := (collectUserScope L reg).2
  let updates := collectUpdates L reg
  let found := registry.and updates
  let found := if found.items = [] ∧ found.warnings = [] then
    found.and (.failed "no entries found under either uninstall registry view") else found
  ⟨found.items, found.warnings, found.complete,
    [sourceState now found.items .winreg registry.complete inactiveProfiles,
      sourceState now found.items .msi registry.complete inactiveProfiles,
      sourceState now found.items .kb updates.complete false]⟩

end Collector

/-- `collect` on Windows: the collection runs on a thread of its own, and there
is none when it panics. -/
def collectWindows (L : Libraries) (now : String) : Option Registry → CollectorResult
  | some reg => collectSync L reg now
  | none => ((CollectorResult.failed now .winreg "collector_panicked").merge
      (.failed now .msi "collector_panicked")).merge (.failed now .kb "collector_panicked")

/-! ## What is in the registry -/

/-- The place of an uninstall key: a view of the machine or of a profile, and
the name of the key in it. -/
structure Program where
  profile : Option String
  view : String × String
  name : String

namespace Program

variable (p : Program)

def hive : RegKey := p.profile.elim hkeyLocalMachine fun sid => hkeyUsers ++ [sid]

def views : List (String × String) := p.profile.elim uninstallKeys fun _ => userUninstallKeys

def scope : InstallationScope := p.profile.elim .system fun _ => .user

def privateContext : String := p.profile.elim p.view.1 fun sid => sid ++ ":" ++ p.view.1

def uninstallKey : RegKey := p.hive ++ [p.view.1]

def key : RegKey := p.uninstallKey ++ [p.name]

end Program

namespace Registry

variable (L : Libraries) (reg : Registry)

/-- The entry of an uninstall key, by its values. -/
def entry (p : Program) : Option SoftwareEntry :=
  uninstallEntry L reg p.uninstallKey p.view.2 p.scope p.privateContext p.name

/-- A profile of a user whose hive is loaded and can be opened. -/
structure Loaded (sid : String) : Prop where
  listed : .ok sid ∈ reg.enumKeys hkeyUsers
  profile : isUserProfileSid sid = true
  opened : reg.refused hkeyUsers sid = none

/-- A profile of a user in the list of profiles. -/
structure ProfileListed (sid : String) : Prop where
  opened : reg.refused hkeyLocalMachine profileListKey = none
  listed : .ok sid ∈ reg.enumKeys (hkeyLocalMachine ++ [profileListKey])
  profile : isUserProfileSid sid = true

/-- **An uninstall key** that can be read, and its entry. -/
structure Has (p : Program) (e : SoftwareEntry) : Prop where
  view : p.view ∈ p.views
  loaded : ∀ sid ∈ p.profile, reg.Loaded sid
  opened : reg.refused p.hive p.view.1 = none
  listed : .ok p.name ∈ reg.enumKeys p.uninstallKey
  readable : reg.refused p.uninstallKey p.name = none
  entry : reg.entry L p = some e

/-- A package of an update that is installed. -/
structure InstalledPackage (kb name : String) : Prop where
  update : kbIdFromPackageName name = some kb
  opened : reg.refused (hkeyLocalMachine ++ [cbsPackages]) name = none
  installed : reg.getU32 (hkeyLocalMachine ++ [cbsPackages] ++ [name]) "CurrentState"
    = .ok cbsStateInstalled

/-- **An update** that is installed. -/
def HasUpdate (kb : String) : Prop :=
  reg.refused hkeyLocalMachine cbsPackages = none ∧
    ∃ name, .ok name ∈ reg.enumKeys (hkeyLocalMachine ++ [cbsPackages]) ∧
      reg.InstalledPackage kb name

/-- A value that is there or is not. -/
def Legible (key : RegKey) (name : String) : Prop :=
  ∀ error, reg.getString key name = .error error → error.notFound = true

/-- An uninstall key of which nothing is missed. -/
structure SubkeyRead (uninstallKey : RegKey) (name : String) : Prop where
  opened : reg.refused uninstallKey name = none
  displayName : reg.Legible (uninstallKey ++ [name]) "DisplayName"
  values : readNonEmpty reg (uninstallKey ++ [name]) "DisplayName" ≠ none →
    ∀ value ∈ ["DisplayVersion", "Publisher", "InstallLocation"],
      reg.Legible (uninstallKey ++ [name]) value

/-- A view of which nothing is missed: it is not there, or each of its keys is
read. -/
def ViewRead (hive : RegKey) (view : String) : Prop :=
  match reg.refused hive view with
  | some error => error.notFound = true
  | none => ∀ item ∈ reg.enumKeys (hive ++ [view]), ∃ name, item = .ok name ∧
      reg.SubkeyRead (hive ++ [view]) name

/-- The list of profiles is not there, or nothing of it is missed. -/
def ProfilesRead : Prop :=
  match reg.refused hkeyLocalMachine profileListKey with
  | some error => error.notFound = true
  | none => ∀ item ∈ reg.enumKeys (hkeyLocalMachine ++ [profileListKey]), ∃ sid, item = .ok sid

/-- **Nothing that was asked for is missed.** -/
structure UninstallsRead : Prop where
  machine : ∀ view ∈ uninstallKeys, reg.ViewRead hkeyLocalMachine view.1
  hives : ∀ item ∈ reg.enumKeys hkeyUsers, ∃ name, item = .ok name ∧
    (isUserProfileSid name = true → reg.refused hkeyUsers name = none ∧
      ∀ view ∈ userUninstallKeys, reg.ViewRead (hkeyUsers ++ [name]) view.1)
  profiles : reg.ProfilesRead

end Registry

/-! ## What is collected -/

variable {L : Libraries} {reg : Registry} {now : String} {e : SoftwareEntry}

theorem items_readOptionalString (key : RegKey) (name : String) :
    (readOptionalString reg key name).2.items = [] := by
  unfold readOptionalString
  split
  · rfl
  · split <;> rfl

theorem complete_readOptionalString (key : RegKey) (name : String) :
    (readOptionalString reg key name).2.complete = true ↔ reg.Legible key name := by
  unfold readOptionalString Registry.Legible
  cases reg.getString key name with
  | ok value => simp
  | error error => cases herror : error.notFound <;> simp [herror]

section Subkey

variable {uninstallKey : RegKey} {architecture privateContext : String} {scope : InstallationScope}
  {item : Except RegError String}

theorem mem_collectSubkey :
    e ∈ (collectSubkey L reg uninstallKey architecture scope privateContext item).items ↔
      ∃ name, item = .ok name ∧ reg.refused uninstallKey name = none ∧
        uninstallEntry L reg uninstallKey architecture scope privateContext name = some e := by
  cases item with
  | error error => simp [collectSubkey]
  | ok name =>
    unfold collectSubkey
    dsimp only
    cases hrefused : reg.refused uninstallKey name with
    | some error => simp [hrefused]
    | none =>
      cases hentry : uninstallEntry L reg uninstallKey architecture scope privateContext name with
      | none => simp [items_readOptionalString, hentry]
      | some entry => simp [items_readOptionalString, hrefused, hentry, eq_comm]

theorem uninstallEntry_eq_none {name : String} :
    uninstallEntry L reg uninstallKey architecture scope privateContext name = none ↔
      readNonEmpty reg (uninstallKey ++ [name]) "DisplayName" = none :=
  Option.map_eq_none_iff

theorem complete_collectSubkey :
    (collectSubkey L reg uninstallKey architecture scope privateContext item).complete = true ↔
      ∃ name, item = .ok name ∧ reg.SubkeyRead uninstallKey name := by
  cases item with
  | error error => simp [collectSubkey]
  | ok name =>
    have hexists : (∃ name', (Except.ok name : Except RegError String) = .ok name' ∧
        reg.SubkeyRead uninstallKey name') ↔ reg.SubkeyRead uninstallKey name := by
      constructor
      · rintro ⟨name', heq, h⟩
        exact Except.ok.inj heq ▸ h
      · exact fun h => ⟨name, rfl, h⟩
    rw [hexists]
    unfold collectSubkey
    dsimp only
    cases hrefused : reg.refused uninstallKey name with
    | some error =>
      refine iff_of_false Bool.false_ne_true fun h => ?_
      rw [h.opened] at hrefused
      cases hrefused
    | none =>
      cases hentry : uninstallEntry L reg uninstallKey architecture scope privateContext name with
      | none =>
        show (readOptionalString reg _ _).2.complete = true ↔ _
        rw [complete_readOptionalString]
        exact ⟨fun h => ⟨hrefused, h, fun hname => absurd (uninstallEntry_eq_none.mp hentry) hname⟩,
          fun h => h.displayName⟩
      | some entry =>
        have hname : readNonEmpty reg (uninstallKey ++ [name]) "DisplayName" ≠ none := fun hnone => by
          rw [uninstallEntry_eq_none.mpr hnone] at hentry
          cases hentry
        simp only [Gathered.complete_and, Gathered.complete_one, complete_readOptionalString]
        constructor
        · rintro ⟨⟨⟨hdisplay, hversion⟩, hpublisher, hlocation⟩, -⟩
          refine ⟨hrefused, hdisplay, fun _ => ?_⟩
          rw [List.forall_mem_cons, List.forall_mem_cons, List.forall_mem_singleton]
          exact ⟨hversion, hpublisher, hlocation⟩
        · intro h
          have hvalues := h.values hname
          rw [List.forall_mem_cons, List.forall_mem_cons, List.forall_mem_singleton] at hvalues
          exact ⟨⟨⟨h.displayName, hvalues.1⟩, hvalues.2⟩, trivial⟩

end Subkey

section View

variable {hive : RegKey} {view : String × String} {scope : InstallationScope}
  {privateContext unreadable : String}

theorem mem_collectView :
    e ∈ (collectView L reg hive view scope privateContext unreadable).items ↔
      reg.refused hive view.1 = none ∧ ∃ name, .ok name ∈ reg.enumKeys (hive ++ [view.1]) ∧
        reg.refused (hive ++ [view.1]) name = none ∧
        uninstallEntry L reg (hive ++ [view.1]) view.2 scope privateContext name = some e := by
  unfold collectView
  cases hrefused : reg.refused hive view.1 with
  | some error => cases herror : error.notFound <;> simp [herror]
  | none =>
    unfold collectFromKey
    simp only [Gathered.mem_all, mem_collectSubkey, true_and]
    constructor
    · rintro ⟨item, hitem, name, rfl, hsubkey⟩
      exact ⟨name, hitem, hsubkey⟩
    · rintro ⟨name, hitem, hsubkey⟩
      exact ⟨_, hitem, name, rfl, hsubkey⟩

theorem complete_collectView :
    (collectView L reg hive view scope privateContext unreadable).complete = true ↔
      reg.ViewRead hive view.1 := by
  unfold collectView Registry.ViewRead
  cases hrefused : reg.refused hive view.1 with
  | some error => cases herror : error.notFound <;> simp [herror]
  | none =>
    unfold collectFromKey
    simp only [Gathered.complete_all, complete_collectSubkey]

end View

/-! ## What the users have -/

section Profiles

variable {item : Except RegError String}

theorem mem_collectHive :
    e ∈ (collectHive L reg item).items ↔ ∃ sid, item = .ok sid ∧ isUserProfileSid sid = true ∧
      reg.refused hkeyUsers sid = none ∧
        ∃ view ∈ userUninstallKeys, e ∈ (collectUserView L reg sid view).items := by
  cases item with
  | error error => simp [collectHive]
  | ok sid =>
    unfold collectHive
    dsimp only
    cases hsid : isUserProfileSid sid with
    | false => simp [hsid]
    | true =>
      cases hrefused : reg.refused hkeyUsers sid with
      | some error => simp [hrefused]
      | none => simp [hsid, hrefused, Gathered.mem_all]

theorem complete_collectHive :
    (collectHive L reg item).complete = true ↔ ∃ name, item = .ok name ∧
      (isUserProfileSid name = true → reg.refused hkeyUsers name = none ∧
        ∀ view ∈ userUninstallKeys, reg.ViewRead (hkeyUsers ++ [name]) view.1) := by
  cases item with
  | error error => simp [collectHive]
  | ok name =>
    unfold collectHive
    dsimp only
    cases hsid : isUserProfileSid name with
    | false => simp [hsid]
    | true =>
      cases hrefused : reg.refused hkeyUsers name with
      | some error => simp [hsid, hrefused]
      | none => simp [hsid, hrefused, Gathered.complete_all, collectUserView, complete_collectView]

theorem mem_loadedProfiles {sid : String} :
    sid ∈ (reg.enumKeys hkeyUsers).filterMap (loadedProfile reg) ↔ reg.Loaded sid := by
  rw [List.mem_filterMap]
  constructor
  · rintro ⟨item, hitem, hloaded⟩
    cases item with
    | error error => cases hloaded
    | ok name =>
      obtain ⟨h, heq⟩ := Option.ite_none_right_eq_some.mp hloaded
      obtain rfl := Option.some.inj heq
      exact ⟨hitem, h.1, h.2⟩
  · exact fun h => ⟨_, h.listed, if_pos ⟨h.profile, h.opened⟩⟩

/-- **A profile is found to be inactive** if one is listed that is not loaded. -/
theorem collectUserScope_inactive :
    (collectUserScope L reg).2 = true ↔ ∃ sid, reg.ProfileListed sid ∧ ¬ reg.Loaded sid := by
  unfold collectUserScope collectProfileList
  dsimp only
  cases hrefused : reg.refused hkeyLocalMachine profileListKey with
  | some error =>
    refine iff_of_false Bool.false_ne_true ?_
    rintro ⟨sid, h, -⟩
    rw [h.opened] at hrefused
    cases hrefused
  | none =>
    rw [List.any_eq_true]
    constructor
    · rintro ⟨item, hitem, hinactive⟩
      cases item with
      | error error => cases hinactive
      | ok sid =>
        unfold inactiveProfile at hinactive
        rw [Bool.and_eq_true, Bool.not_eq_true', List.contains_eq_mem, decide_eq_false_iff_not,
          mem_loadedProfiles] at hinactive
        exact ⟨sid, ⟨hrefused, hitem, hinactive.1⟩, hinactive.2⟩
    · rintro ⟨sid, h, hloaded⟩
      refine ⟨_, h.listed, ?_⟩
      unfold inactiveProfile
      rw [Bool.and_eq_true, Bool.not_eq_true', List.contains_eq_mem, decide_eq_false_iff_not,
        mem_loadedProfiles]
      exact ⟨h.profile, hloaded⟩

theorem items_checkProfile (profiles : List String) (profile : Except RegError String) :
    (checkProfile profiles profile).items = [] := by
  unfold checkProfile
  split
  · rfl
  · split <;> rfl

theorem complete_checkProfile (profiles : List String) (profile : Except RegError String) :
    (checkProfile profiles profile).complete = true ↔ ∃ sid, profile = .ok sid := by
  cases profile with
  | error error => simp [checkProfile]
  | ok sid =>
    unfold checkProfile
    dsimp only
    split <;> simp

theorem items_collectProfileList (profiles : List String) :
    (collectProfileList reg profiles).1.items = [] := by
  unfold collectProfileList
  split
  · refine List.eq_nil_iff_forall_not_mem.mpr fun e he => ?_
    obtain ⟨profile, -, he⟩ := Gathered.mem_all.mp he
    rw [items_checkProfile] at he
    exact List.not_mem_nil he
  · next error _ => cases error.notFound <;> rfl

theorem complete_collectProfileList (profiles : List String) :
    (collectProfileList reg profiles).1.complete = true ↔ reg.ProfilesRead := by
  unfold collectProfileList Registry.ProfilesRead
  cases hrefused : reg.refused hkeyLocalMachine profileListKey with
  | some error => cases herror : error.notFound <;> simp [herror]
  | none => simp only [Gathered.complete_all, complete_checkProfile]

end Profiles

/-- **The entries of the uninstall keys** are those of the keys that can be read. -/
theorem mem_collectUninstalls :
    e ∈ (collectUninstalls L reg).items ↔ ∃ p, reg.Has L p e := by
  unfold collectUninstalls collectUserScope
  simp only [Gathered.items_and, items_collectProfileList, List.append_nil, List.mem_append,
    Gathered.mem_all, mem_collectHive, collectMachineView, collectUserView, mem_collectView]
  constructor
  · rintro (⟨view, hview, hopened, name, hlisted, hreadable, hentry⟩ |
      ⟨_, hhive, sid, rfl, hsid, hloaded, view, hview, hopened, name, hlisted, hreadable, hentry⟩)
    · exact ⟨⟨none, view, name⟩, hview, fun _ h => (nomatch h), hopened, hlisted, hreadable, hentry⟩
    · refine ⟨⟨some sid, view, name⟩, hview, fun sid' h => ?_, hopened, hlisted, hreadable, hentry⟩
      exact Option.mem_some.mp h ▸ ⟨hhive, hsid, hloaded⟩
  · rintro ⟨⟨profile, view, name⟩, hview, hloaded, hopened, hlisted, hreadable, hentry⟩
    cases profile with
    | none => exact .inl ⟨view, hview, hopened, name, hlisted, hreadable, hentry⟩
    | some sid =>
      have h := hloaded sid rfl
      exact .inr ⟨_, h.listed, sid, rfl, h.profile, h.opened, view, hview, hopened, name, hlisted,
        hreadable, hentry⟩

/-- **They are complete** where nothing was missed. -/
theorem complete_collectUninstalls :
    (collectUninstalls L reg).complete = true ↔ reg.UninstallsRead := by
  unfold collectUninstalls collectUserScope
  simp only [Gathered.complete_and, Gathered.complete_all, complete_collectHive,
    complete_collectProfileList, collectMachineView, complete_collectView]
  exact ⟨fun h => ⟨h.1, h.2.1, h.2.2⟩, fun h => ⟨h.machine, h.hives, h.profiles⟩⟩

/-! ## Updates -/

section Updates

variable {seen : List String} {item : Except RegError String} {names : List (Except RegError String)}

/-- An update one of whose packages is found to be installed. -/
def Registry.Finds (reg : Registry) (names : List (Except RegError String)) (kb : String) : Prop :=
  ∃ name, .ok name ∈ names ∧ reg.InstalledPackage kb name

/-- A package that is found not to be installed. -/
structure Registry.NotInstalled (reg : Registry) (name : String) : Prop where
  opened : reg.refused (hkeyLocalMachine ++ [cbsPackages]) name = none
  state : ∃ state, reg.getU32 (hkeyLocalMachine ++ [cbsPackages] ++ [name]) "CurrentState" = .ok state
    ∧ state ≠ cbsStateInstalled

theorem finds_cons {kb : String} :
    reg.Finds (item :: names) kb ↔ reg.Finds [item] kb ∨ reg.Finds names kb := by
  unfold Registry.Finds
  simp only [List.mem_cons, List.not_mem_nil, or_false]
  constructor
  · rintro ⟨name, rfl | hname, h⟩
    · exact .inl ⟨name, rfl, h⟩
    · exact .inr ⟨name, hname, h⟩
  · rintro (⟨name, rfl, h⟩ | ⟨name, hname, h⟩)
    · exact ⟨name, .inl rfl, h⟩
    · exact ⟨name, .inr hname, h⟩

/-- What a package leaves: the update it is of, or nothing. -/
inductive PackageSeen (L : Libraries) (reg : Registry) (seen : List String)
    (item : Except RegError String) : Gathered SoftwareEntry × List String → Prop
  | installed {kb : String} (hnew : kb ∉ seen) (hfound : ∀ kb', reg.Finds [item] kb' ↔ kb' = kb)
      (hok : ∃ name, item = .ok name ∧ kbIdFromPackageName name = some kb) :
      PackageSeen L reg seen item (.one (updateEntry L kb), kb :: seen)
  | passed {found : Gathered SoftwareEntry} (hitems : found.items = [])
      (hold : ∀ kb, reg.Finds [item] kb → kb ∈ seen)
      (hread : found.complete = true → ∃ name, item = .ok name ∧
        ∀ kb, kbIdFromPackageName name = some kb → kb ∈ seen ∨ reg.NotInstalled name) :
      PackageSeen L reg seen item (found, seen)

theorem finds_singleton {name kb : String} :
    reg.Finds [.ok name] kb ↔ reg.InstalledPackage kb name := by
  unfold Registry.Finds
  simp only [List.mem_singleton, Except.ok.injEq, exists_eq_left]

theorem collectPackage_seen (L : Libraries) (reg : Registry) (seen : List String) (item : Except RegError String) :
    PackageSeen L reg seen item
      (collectPackage L reg (hkeyLocalMachine ++ [cbsPackages]) seen item) := by
  unfold collectPackage
  cases item with
  | error error =>
    refine .passed rfl (fun kb h => ?_) fun h => (nomatch h)
    obtain ⟨name, hname, -⟩ := h
    cases List.mem_singleton.mp hname
  | ok name =>
    dsimp only
    cases hkb : kbIdFromPackageName name with
    | none =>
      refine .passed rfl (fun kb h => ?_) fun _ => ⟨name, rfl, fun kb h => ?_⟩
      · have hupdate := (finds_singleton.mp h).update
        rw [hkb] at hupdate
        cases hupdate
      · rw [hkb] at h
        cases h
    | some kb =>
      have hupdate : ∀ {kb'}, kbIdFromPackageName name = some kb' → kb' = kb := fun h =>
        Option.some.inj (h.symm.trans hkb)
      dsimp only
      split
      · next hseen =>
        exact .passed rfl (fun kb' h => hupdate (finds_singleton.mp h).update ▸ hseen)
          fun _ => ⟨name, rfl, fun kb' h => .inl (hupdate h ▸ hseen)⟩
      · next hseen =>
        cases hrefused : reg.refused (hkeyLocalMachine ++ [cbsPackages]) name with
        | some error =>
          refine .passed rfl (fun kb' h => ?_) fun h => (nomatch h)
          have hopened := (finds_singleton.mp h).opened
          rw [hrefused] at hopened
          cases hopened
        | none =>
          cases hstate : reg.getU32 (hkeyLocalMachine ++ [cbsPackages] ++ [name])
              "CurrentState" with
          | error error =>
            refine .passed rfl (fun kb' h => ?_) fun h => (nomatch h)
            have hinstalled := (finds_singleton.mp h).installed
            rw [hstate] at hinstalled
            cases hinstalled
          | ok state =>
            dsimp only
            split
            · next hinstalled =>
              subst hinstalled
              refine .installed hseen (fun kb' => ?_) ⟨name, rfl, hkb⟩
              rw [finds_singleton]
              constructor
              · exact fun h => hupdate h.update
              · rintro rfl
                exact ⟨hkb, hrefused, hstate⟩
            · next hother =>
              refine .passed rfl (fun kb' h => ?_)
                fun _ => ⟨name, rfl, fun _ _ => .inr ⟨hrefused, state, hstate, hother⟩⟩
              have hinstalled := (finds_singleton.mp h).installed
              rw [hstate] at hinstalled
              exact absurd (Except.ok.inj hinstalled) hother

/-- **The updates that are collected**, none of them twice, are those of which
an installed package is found. -/
theorem collectPackages_items (L : Libraries) (reg : Registry) (seen : List String)
    (names : List (Except RegError String)) :
    ∃ kbs : List String, (collectPackages L reg (hkeyLocalMachine ++ [cbsPackages]) seen names).1.items
        = kbs.map (updateEntry L) ∧ kbs.Nodup ∧
      (∀ kb, kb ∈ kbs ↔ kb ∉ seen ∧ reg.Finds names kb) ∧
      ∀ kb, kb ∈ (collectPackages L reg (hkeyLocalMachine ++ [cbsPackages]) seen names).2 ↔
        kb ∈ seen ∨ kb ∈ kbs := by
  induction names generalizing seen with
  | nil =>
    refine ⟨[], rfl, List.nodup_nil, fun kb => ?_, fun kb => ?_⟩
    · exact iff_of_false List.not_mem_nil fun h => by
        obtain ⟨-, name, hname, -⟩ := h
        cases hname
    · exact (or_iff_left List.not_mem_nil).symm
  | cons item names ih =>
    have hseen := collectPackage_seen L reg seen item
    unfold collectPackages
    dsimp only
    generalize collectPackage L reg (hkeyLocalMachine ++ [cbsPackages]) seen item = found
      at hseen ⊢
    cases hseen with
    | @installed kb hnew hfound hok =>
      obtain ⟨kbs, hitems, hnodup, hmem, hafter⟩ := ih (kb :: seen)
      refine ⟨kb :: kbs, ?_, List.nodup_cons.mpr ⟨?_, hnodup⟩, fun kb' => ?_, fun kb' => ?_⟩
      · rw [Gathered.items_and, hitems]
        rfl
      · exact fun h => ((hmem kb).mp h).1 List.mem_cons_self
      · rw [finds_cons, hfound, List.mem_cons, hmem, List.mem_cons]
        constructor
        · rintro (rfl | ⟨hno, h⟩)
          · exact ⟨hnew, .inl rfl⟩
          · exact ⟨fun hin => hno (.inr hin), .inr h⟩
        · rintro ⟨hno, rfl | h⟩
          · exact .inl rfl
          · by_cases heq : kb' = kb
            · exact .inl heq
            · exact .inr ⟨fun hin => hin.elim heq hno, h⟩
      · rw [hafter, List.mem_cons, List.mem_cons]
        tauto
    | @passed first hfirst hold hread =>
      obtain ⟨kbs, hitems, hnodup, hmem, hafter⟩ := ih seen
      refine ⟨kbs, ?_, hnodup, fun kb' => ?_, hafter⟩
      · rw [Gathered.items_and, hfirst, hitems]
        rfl
      · rw [hmem, finds_cons]
        exact and_congr_right fun hno => (or_iff_right fun h => hno (hold _ h)).symm

/-- **Where nothing fails each package is known**: its update is collected or
it is not installed. -/
theorem collectPackages_read (L : Libraries) (reg : Registry) (seen : List String)
    (names : List (Except RegError String))
    (h : (collectPackages L reg (hkeyLocalMachine ++ [cbsPackages]) seen names).1.complete = true) :
    ∀ item ∈ names, ∃ name, item = .ok name ∧ ∀ kb, kbIdFromPackageName name = some kb →
      kb ∈ (collectPackages L reg (hkeyLocalMachine ++ [cbsPackages]) seen names).2 ∨
        reg.NotInstalled name := by
  induction names generalizing seen with
  | nil => exact fun _ hitem => (nomatch hitem)
  | cons item names ih =>
    have hseen := collectPackage_seen L reg seen item
    unfold collectPackages at h ⊢
    dsimp only at h ⊢
    generalize collectPackage L reg (hkeyLocalMachine ++ [cbsPackages]) seen item = found
      at hseen h ⊢
    obtain ⟨hfirst, hrest⟩ := Gathered.complete_and.mp h
    obtain ⟨kbs, -, -, -, hafter⟩ := collectPackages_items L reg found.2 names
    refine List.forall_mem_cons.mpr ⟨?_, ih found.2 hrest⟩
    cases hseen with
    | installed hnew hfound hok =>
      obtain ⟨name, rfl, hkb⟩ := hok
      refine ⟨name, rfl, fun kb' hkb' => .inl ((hafter kb').mpr (.inl ?_))⟩
      rw [Option.some.inj (hkb'.symm.trans hkb)]
      exact List.mem_cons_self
    | passed hitems hold hread =>
      obtain ⟨name, rfl, hname⟩ := hread hfirst
      exact ⟨name, rfl, fun kb hkb => (hname kb hkb).imp_left fun hin => (hafter kb).mpr (.inl hin)⟩

/-- The updates that are collected are those that are found to be installed. -/
theorem collectUpdates_items (L : Libraries) (reg : Registry) :
    ∃ kbs : List String, (collectUpdates L reg).items = kbs.map (updateEntry L) ∧ kbs.Nodup ∧
      ∀ kb, kb ∈ kbs ↔ reg.HasUpdate kb := by
  unfold collectUpdates Registry.HasUpdate
  cases hrefused : reg.refused hkeyLocalMachine cbsPackages with
  | some error =>
    refine ⟨[], ?_, List.nodup_nil, fun kb => iff_of_false List.not_mem_nil fun h => ?_⟩
    · cases herror : error.notFound <;> simp [herror]
    · cases h.1
  | none =>
    obtain ⟨kbs, hitems, hnodup, hmem, -⟩ := collectPackages_items L reg []
      (reg.enumKeys (hkeyLocalMachine ++ [cbsPackages]))
    refine ⟨kbs, ?_, hnodup, fun kb => ?_⟩
    · dsimp only
      split
      · rw [Gathered.items_and, Gathered.items_warned, List.append_nil]
        exact hitems
      · exact hitems
    · rw [hmem]
      simp [Registry.Finds]

end Updates

/-! ## The report -/

theorem collectSync_entries :
    (collectSync L reg now).entries = (collectUninstalls L reg).items ++ (collectUpdates L reg).items := by
  unfold collectSync
  dsimp only
  split
  · next h =>
    rw [Gathered.items_and, Gathered.items_failed, List.append_nil]
    rfl
  · rfl

theorem status_sourceState {entries : List SoftwareEntry} {source : SoftwareSource}
    {healthy gap : Bool} :
    (sourceState now entries source healthy gap).status = .complete ↔ healthy = true ∧ gap = false := by
  show (if (healthy && !gap) = true then CollectionStatus.complete
    else if (entries.any fun entry => entry.source = source) = true then .partialResult
    else .failed) = .complete ↔ _
  by_cases h : (healthy && !gap) = true
  · rw [if_pos h]
    rw [Bool.and_eq_true, Bool.not_eq_true'] at h
    exact iff_of_true rfl h
  · rw [if_neg h]
    refine iff_of_false (fun heq => ?_) fun hboth => h (by rw [hboth.1, hboth.2]; rfl)
    split at heq <;> cases heq

/-- An entry is that of an uninstall key or of an update. -/
theorem mem_collectSync : e ∈ (collectSync L reg now).entries ↔
    (∃ p, reg.Has L p e) ∨ ∃ kb, reg.HasUpdate kb ∧ e = updateEntry L kb := by
  obtain ⟨kbs, hitems, -, hmem⟩ := collectUpdates_items L reg
  rw [collectSync_entries, List.mem_append, mem_collectUninstalls, hitems, List.mem_map]
  refine or_congr_right (exists_congr fun kb => ?_)
  rw [hmem, eq_comm]

/-- What a source that is complete says. -/
theorem complete_source {s : CollectionSource} (hs : s ∈ (collectSync L reg now).sources) :
    (s.source ≠ .kb → (s.status = .complete ↔
      reg.UninstallsRead ∧ ∀ sid, reg.ProfileListed sid → reg.Loaded sid)) ∧
    (s.source = .kb → (s.status = .complete ↔ (collectUpdates L reg).complete = true)) := by
  have hgap : (collectUserScope L reg).2 = false ↔
      ∀ sid, reg.ProfileListed sid → reg.Loaded sid := by
    rw [← Bool.not_eq_true, collectUserScope_inactive]
    simp only [not_exists, not_and, not_not]
  rw [← hgap, ← complete_collectUninstalls (L := L)]
  unfold collectSync at hs
  rcases List.mem_cons.mp hs with rfl | hs
  · exact ⟨fun _ => status_sourceState, fun h => (nomatch h)⟩
  rcases List.mem_cons.mp hs with rfl | hs
  · exact ⟨fun _ => status_sourceState, fun h => (nomatch h)⟩
  · rw [List.mem_singleton.mp hs]
    exact ⟨fun h => absurd rfl h, fun _ => status_sourceState.trans (and_iff_left rfl)⟩

end Lariska
