import Lariska.InventoryDelta
import Lariska.SnapshotValidity
import Lariska.WindowsRegistry

/-!
# What is reported as removed

Two snapshots of a host are compared, and what only the first has is reported
as removed where the second has a complete observation of its source. A read
that failed, a profile that is signed out or a collection that panicked leaves
something out of the second. None of them must make a program look removed that
is still there.

Nor do they (`removed_gone`), but for one read: whether an entry is of Windows
Installer is asked without regard to failure. Where this fails the program
changes its source, and is taken for another.
-/

namespace Lariska

/-! ## A registry and what is read of it -/

/-- What the registry answers is what is in it, or that the read has failed. -/
structure Registry.Reads (reg truth : Registry) : Prop where
  refused : ∀ key name, reg.refused key name = truth.refused key name ∨
    ∃ error, reg.refused key name = some error ∧ error.notFound = false
  enumKeys : ∀ key, List.Forall₂ (Answers fun _ => True) (reg.enumKeys key) (truth.enumKeys key)
  getString : ∀ key name, Answers (fun error => error.notFound = false) (reg.getString key name)
    (truth.getString key name)
  getU32 : ∀ key name, Answers (fun error => error.notFound = false) (reg.getU32 key name)
    (truth.getU32 key name)

namespace Registry.Reads

variable {reg truth : Registry} {key : RegKey} {name : String} {L : Libraries}

theorem refused_eq_none (h : reg.Reads truth) (hopened : reg.refused key name = none) :
    truth.refused key name = none := by
  rcases h.refused key name with heq | ⟨error, heq, -⟩
  · rw [← heq, hopened]
  · rw [hopened] at heq
    cases heq

/-- What is not found is not there. -/
theorem refused_of_notFound (h : reg.Reads truth) {error : RegError}
    (hrefused : reg.refused key name = some error) (hnotFound : error.notFound = true) :
    truth.refused key name = some error := by
  rcases h.refused key name with heq | ⟨error', heq, hfailure⟩
  · rw [← heq, hrefused]
  · obtain rfl := Option.some.inj (hrefused.symm.trans heq)
    rw [hnotFound] at hfailure
    cases hfailure

theorem opened_of_view (h : reg.Reads truth) (hread : reg.ViewRead key name)
    (htruth : truth.refused key name = none) :
    reg.refused key name = none ∧ reg.enumKeys (key ++ [name]) = truth.enumKeys (key ++ [name]) ∧
      ∀ subkey, .ok subkey ∈ reg.enumKeys (key ++ [name]) →
        reg.SubkeyRead (key ++ [name]) subkey := by
  unfold ViewRead at hread
  cases hrefused : reg.refused key name with
  | some error =>
    rw [hrefused] at hread
    rw [h.refused_of_notFound hrefused hread] at htruth
    cases htruth
  | none =>
    rw [hrefused] at hread
    refine ⟨rfl, answers_eq (h.enumKeys _) fun item hitem => ?_, fun subkey hsubkey => ?_⟩
    · obtain ⟨subkey, rfl, -⟩ := hread item hitem
      exact ⟨subkey, rfl⟩
    · obtain ⟨subkey', heq, hsubkey'⟩ := hread _ hsubkey
      exact Except.ok.inj heq ▸ hsubkey'

/-- A value that did not fail is the value that is there. -/
theorem readNonEmpty_eq (h : reg.Reads truth) (hlegible : reg.Legible key name) :
    readNonEmpty reg key name = readNonEmpty truth key name := by
  have hvalue : reg.getString key name = truth.getString key name :=
    (h.getString key name).eq_of_not fun error heq hfailure => by
      rw [hlegible error heq] at hfailure
      cases hfailure
  unfold readNonEmpty readOptionalString
  rw [hvalue]

/-- **An uninstall key that was not missed** has the entry it should have, if
it is known whether it is of Windows Installer. -/
theorem entry_eq (h : reg.Reads truth) (p : Program) (hread : reg.SubkeyRead p.uninstallKey p.name)
    (hmsi : reg.getU32 p.key "WindowsInstaller" = truth.getU32 p.key "WindowsInstaller") :
    reg.entry L p = truth.entry L p := by
  have hdisplay := h.readNonEmpty_eq hread.displayName
  have hkind : isMsiEntry reg p.key p.name = isMsiEntry truth p.key p.name := by
    unfold isMsiEntry
    rw [hmsi]
  unfold Registry.entry uninstallEntry
  dsimp only
  cases hname : readNonEmpty reg (p.uninstallKey ++ [p.name]) "DisplayName" with
  | none => rw [← hdisplay, hname, Option.map_none, Option.map_none]
  | some displayName =>
    have hvalue : ∀ value ∈ ["DisplayVersion", "Publisher", "InstallLocation"],
        readNonEmpty reg (p.uninstallKey ++ [p.name]) value
          = readNonEmpty truth (p.uninstallKey ++ [p.name]) value := fun value hv =>
      h.readNonEmpty_eq (hread.values (fun hnone => by rw [hname] at hnone; cases hnone) value hv)
    rw [List.forall_mem_cons, List.forall_mem_cons, List.forall_mem_singleton] at hvalue
    rw [← hdisplay, hname, hvalue.1, hvalue.2.1, hvalue.2.2,
      show isMsiEntry reg (p.uninstallKey ++ [p.name]) p.name
        = isMsiEntry truth (p.uninstallKey ++ [p.name]) p.name from hkind]

theorem users_eq (h : reg.Reads truth) (hread : reg.UninstallsRead) :
    reg.enumKeys hkeyUsers = truth.enumKeys hkeyUsers :=
  answers_eq (h.enumKeys _) fun item hitem =>
    (hread.hives item hitem).imp fun _ hname => hname.1

theorem loaded (h : reg.Reads truth) (hread : reg.UninstallsRead) {sid : String} :
    reg.Loaded sid ↔ truth.Loaded sid := by
  constructor
  · exact fun hsid => ⟨h.users_eq hread ▸ hsid.listed, hsid.profile, h.refused_eq_none hsid.opened⟩
  · intro hsid
    have hlisted : .ok sid ∈ reg.enumKeys hkeyUsers := h.users_eq hread ▸ hsid.listed
    obtain ⟨name, heq, hhive⟩ := hread.hives _ hlisted
    obtain rfl := Except.ok.inj heq
    exact ⟨hlisted, hsid.profile, (hhive hsid.profile).1⟩

/-- Where nothing was missed, a profile is listed if it is there. -/
theorem profileListed (h : reg.Reads truth) (hread : reg.UninstallsRead) {sid : String}
    (hsid : truth.ProfileListed sid) : reg.ProfileListed sid := by
  have hprofiles := hread.profiles
  unfold ProfilesRead at hprofiles
  cases hrefused : reg.refused hkeyLocalMachine profileListKey with
  | some error =>
    rw [hrefused] at hprofiles
    have htruth := h.refused_of_notFound hrefused hprofiles
    rw [hsid.opened] at htruth
    cases htruth
  | none =>
    rw [hrefused] at hprofiles
    exact ⟨hrefused, answers_eq (h.enumKeys _) hprofiles ▸ hsid.listed, hsid.profile⟩

/-- **Where nothing was missed, what is there is seen.** -/
theorem has (h : reg.Reads truth) (hread : reg.UninstallsRead) {p : Program} {e : SoftwareEntry}
    (hmsi : reg.getU32 p.key "WindowsInstaller" = truth.getU32 p.key "WindowsInstaller")
    (hp : truth.Has L p e) : reg.Has L p e := by
  have hloaded : ∀ sid ∈ p.profile, reg.Loaded sid := fun sid hsid =>
    (h.loaded hread).mpr (hp.loaded sid hsid)
  have hview : reg.ViewRead p.hive p.view.1 := by
    obtain ⟨profile, view, name⟩ := p
    cases profile with
    | none => exact hread.machine view hp.view
    | some sid =>
      have hsid := hloaded sid rfl
      obtain ⟨name', heq, hhive⟩ := hread.hives _ hsid.listed
      obtain rfl := Except.ok.inj heq
      exact (hhive hsid.profile).2 view hp.view
  obtain ⟨hopened, hkeys, hsubkeys⟩ := h.opened_of_view hview hp.opened
  have hlisted : .ok p.name ∈ reg.enumKeys p.uninstallKey := hkeys.symm ▸ hp.listed
  have hsubkey := hsubkeys _ hlisted
  exact ⟨hp.view, hloaded, hopened, hlisted, hsubkey.opened,
    (h.entry_eq p hsubkey hmsi).trans hp.entry⟩

/-- The same of updates. -/
theorem hasUpdate (h : reg.Reads truth) (hcomplete : (collectUpdates L reg).complete = true)
    {kb : String} (hkb : truth.HasUpdate kb) : reg.HasUpdate kb := by
  obtain ⟨htruth, name, hname, hinstalled⟩ := hkb
  unfold collectUpdates at hcomplete
  cases hrefused : reg.refused hkeyLocalMachine cbsPackages with
  | some error =>
    rw [hrefused] at hcomplete
    dsimp only at hcomplete
    cases hnotFound : error.notFound with
    | false =>
      rw [hnotFound] at hcomplete
      cases hcomplete
    | true =>
      rw [h.refused_of_notFound hrefused hnotFound] at htruth
      cases htruth
  | none =>
    rw [hrefused] at hcomplete
    dsimp only at hcomplete
    have hpackages : (collectPackages L reg (hkeyLocalMachine ++ [cbsPackages]) []
        (reg.enumKeys (hkeyLocalMachine ++ [cbsPackages]))).1.complete = true := by
      split at hcomplete
      · exact (Gathered.complete_and.mp hcomplete).1
      · exact hcomplete
    have hread := collectPackages_read L reg [] _ hpackages
    obtain ⟨kbs, -, -, hmem, hafter⟩ := collectPackages_items L reg []
      (reg.enumKeys (hkeyLocalMachine ++ [cbsPackages]))
    have hnames : reg.enumKeys (hkeyLocalMachine ++ [cbsPackages])
        = truth.enumKeys (hkeyLocalMachine ++ [cbsPackages]) :=
      answers_eq (h.enumKeys _) fun item hitem => (hread item hitem).imp fun _ hn => hn.1
    obtain ⟨name', heq, hknown⟩ := hread (.ok name) (hnames.symm ▸ hname)
    obtain rfl := Except.ok.inj heq
    rcases hknown kb hinstalled.update with hseen | ⟨-, state, hstate, hother⟩
    · obtain ⟨-, hfinds⟩ := (hmem kb).mp (((hafter kb).mp hseen).resolve_left List.not_mem_nil)
      exact ⟨hrefused, hfinds⟩
    · have hanswer := h.getU32 (hkeyLocalMachine ++ [cbsPackages] ++ [name]) "CurrentState"
      rw [hstate, hinstalled.installed] at hanswer
      exact absurd (Except.ok.inj hanswer.eq_of_ok).symm hother

end Registry.Reads

/-! ## Which program an entry is of -/

namespace InventorySnapshot

variable {L : Libraries} {agentId : String}

/-- An entry that has an instance is known by all but its version and its
place. -/
theorem prepareEntry_identity {e : SoftwareEntry} {instanceId : String}
    (hnew : e.installationIdentity = none) (hid : e.installInstanceId = some instanceId)
    (version installLocation : Option String) :
    (prepareEntry L inventorySchemaVersion agentId
        { e with version := version, installLocation := installLocation }).identityKey L
          inventorySchemaVersion
      = (prepareEntry L inventorySchemaVersion agentId e).identityKey L inventorySchemaVersion := by
  have hkey : ∀ e : SoftwareEntry, entryKey L inventorySchemaVersion (e.normalize.identify L agentId)
      = hashIdentity L ((e.normalize.identify L agentId).installationParts L) := fun e => by
    have h := SoftwareEntry.identified_identify L agentId e.normalize
    exact Option.some_inj.mp ((entryKey_of_identified h).trans h.installationIdentity)
  unfold prepareEntry
  rw [if_pos rfl, if_pos rfl]
  refine (hkey _).trans (Eq.trans ?_ (hkey _).symm)
  rw [((SoftwareEntry.identified_identify L agentId _).installationParts_inj
    (SoftwareEntry.identified_identify L agentId _)).mpr]
  have hinstallation := fun (e : SoftwareEntry) (h : e.normalize.installationIdentity = none) =>
    SoftwareEntry.installation_identify (L := L) h agentId
  rw [hinstallation { e with version := version, installLocation := installLocation } hnew,
    hinstallation e hnew]
  simp only [SoftwareEntry.prepare, SoftwareEntry.normalize, SoftwareEntry.comparisonKey, hid,
    Option.getD_some]

/-- What is collected with a name has its key in the snapshot. -/
theorem find_prepared {s : InventorySnapshot} {raw : SoftwareEntry} (hraw : raw ∈ s.software)
    (hname : (prepareEntry L s.schemaVersion s.agentId raw).name ≠ "") :
    (s.normalize L).find L
      ((prepareEntry L s.schemaVersion s.agentId raw).identityKey L s.schemaVersion) ≠ none := by
  have hp : prepareEntry L s.schemaVersion s.agentId raw ∈ s.prepared L :=
    mem_preparedSoftware.mpr ⟨⟨raw, hraw, rfl⟩, hname⟩
  obtain ⟨e, he, hkey⟩ := Survivors.exists_survivor (entryKey L s.schemaVersion) (entryRank L) hp
  rw [← normalize_software] at he
  intro hnone
  exact List.find?_eq_none.mp hnone e he (decide_eq_true hkey)

end InventorySnapshot

/-- A program as it was: its version and its place may have changed. -/
structure SameProgram (e e' : SoftwareEntry) : Prop where
  name : e'.name = e.name
  publisher : e'.publisher = e.publisher
  source : e'.source = e.source

section Entries

variable {L : Libraries} {reg reg' : Registry} {p : Program} {e e' : SoftwareEntry}

/-- What the entry of an uninstall key is new with. -/
theorem programEntry_new (h : reg.entry L p = some e) :
    e.installationIdentity = none ∧ (∃ id, e.installInstanceId = some id) ∧
      (e.source = .winreg ∨ e.source = .msi) := by
  obtain ⟨displayName, -, rfl⟩ := Option.map_eq_some_iff.mp h
  refine ⟨rfl, ⟨_, rfl⟩, ?_⟩
  show (if isMsiEntry reg _ _ = true then SoftwareSource.msi else .winreg) = .winreg ∨
    (if isMsiEntry reg _ _ = true then SoftwareSource.msi else .winreg) = .msi
  split
  · exact .inr rfl
  · exact .inl rfl

/-- Entries of one key which are of one program differ in nothing else. -/
theorem programEntry_same (h : reg.entry L p = some e) (h' : reg'.entry L p = some e')
    (hsame : SameProgram e e') :
    e' = { e with version := e'.version, installLocation := e'.installLocation } := by
  obtain ⟨displayName, -, rfl⟩ := Option.map_eq_some_iff.mp h
  obtain ⟨displayName', -, rfl⟩ := Option.map_eq_some_iff.mp h'
  obtain ⟨hname, hpublisher, hsource⟩ := hsame
  have hmsi : isMsiEntry reg' (p.uninstallKey ++ [p.name]) p.name
      = isMsiEntry reg (p.uninstallKey ++ [p.name]) p.name := by
    unfold SoftwareEntry.withInstance at hsource
    dsimp only at hsource
    cases hold : isMsiEntry reg (p.uninstallKey ++ [p.name]) p.name <;>
      cases hnew : isMsiEntry reg' (p.uninstallKey ++ [p.name]) p.name <;>
      simp_all
  unfold SoftwareEntry.withInstance at hname hpublisher ⊢
  dsimp only at hname hpublisher ⊢
  rw [hname, hpublisher, hmsi]

end Entries

/-! ## What is removed -/

def SoftwareSource.OfWindows (source : SoftwareSource) : Prop :=
  source = .winreg ∨ source = .msi ∨ source = .kb

/-- **A program is gone**: no profile is signed out, and what may be at its
place is another program, or it could not be read whether it is of Windows
Installer. -/
structure ProgramGone (L : Libraries) (reg truth : Registry) (p : Program) (e : SoftwareEntry) :
    Prop where
  present : ∀ sid, truth.ProfileListed sid → truth.Loaded sid
  gone : ∀ e', truth.Has L p e' → SameProgram e e' →
    reg.getU32 p.key "WindowsInstaller" ≠ truth.getU32 p.key "WindowsInstaller"

section Removed

open InventorySnapshot

variable {L : Libraries} {s t : InventorySnapshot} {change : SoftwareDeltaItem}

/-- **What a removal says**: an entry of the first snapshot whose key the second
has not, and of whose source it has seen everything. -/
theorem removed_entry (hs : s.schemaVersion = inventorySchemaVersion)
    (ht : t.schemaVersion = inventorySchemaVersion) (hagent : s.agentId = t.agentId)
    (h : change ∈ ((s.normalize L).diff L (t.normalize L)).softwareChanges)
    (hremoved : change.action = .removed) :
    ∃ raw ∈ t.software, change.entry = prepareEntry L inventorySchemaVersion t.agentId raw ∧
      change.entry.name ≠ "" ∧
      (∀ raw' ∈ s.software, (prepareEntry L inventorySchemaVersion t.agentId raw').name ≠ "" →
        (prepareEntry L inventorySchemaVersion t.agentId raw').identityKey L inventorySchemaVersion
          ≠ change.entry.identityKey L inventorySchemaVersion) ∧
      ∃ state ∈ s.sources, state.source = change.entry.source ∧ state.status = .complete := by
  have hmem : change ∈ (s.normalize L).changes L (t.normalize L) := Stamped.mem_inOrder.mp h
  have hv : (s.normalize L).schemaVersion = (t.normalize L).schemaVersion := hs.trans ht.symm
  rcases (mem_changes hv s.pairwise_normalize t.pairwise_normalize).mp hmem with
    ⟨k, e, -, -, ⟨p, -, -, rfl⟩ | ⟨-, rfl⟩⟩ | ⟨k, p, hpk, hck, hsay, rfl⟩
  · cases hremoved
  · cases hremoved
  · obtain ⟨hp, hkey⟩ := of_find hpk
    rw [normalize_software] at hp
    obtain ⟨⟨raw, hraw, hrawp⟩, hname⟩ := mem_preparedSoftware.mp (Survivors.isBest_of_mem hp).1
    rw [ht] at hrawp
    rw [normalize_schemaVersion, ht] at hkey
    refine ⟨raw, hraw, hrawp.symm, hname, fun raw' hraw' hname' hsame => ?_, ?_⟩
    · have hfind := find_prepared (L := L) hraw'
      rw [hs, hagent, hsame.trans hkey] at hfind
      exact hfind hname' hck
    · rw [normalize_schemaVersion, hs] at hsay
      have hcompletes := hsay.resolve_left fun hlegacy => (by cases hlegacy)
      obtain ⟨state, hstate, hboth⟩ := List.any_eq_true.mp hcompletes
      have hsources : (s.normalize L).sources = s.sources.insertionSort
          fun left right => left.source.ctorIdx ≤ right.source.ctorIdx := by
        unfold InventorySnapshot.normalize
        exact if_pos hs
      rw [hsources, List.mem_insertionSort] at hstate
      rw [Bool.and_eq_true, decide_eq_true_eq, decide_eq_true_eq] at hboth
      exact ⟨state, hstate, hboth⟩

/-- **No failure makes a program look removed.** Of two snapshots of a host, each
with what Windows gave, whatever could not be read: what the second lacks and is
reported as removed was read as an uninstall key and is gone from the registry,
or as an update and is installed no longer. -/
theorem removed_gone (now now' : String) {before after : Option Registry} {truth : Registry}
    (hs : s.schemaVersion = inventorySchemaVersion) (ht : t.schemaVersion = inventorySchemaVersion)
    (hagent : s.agentId = t.agentId)
    (hbefore : ∀ e ∈ t.software, e.source.OfWindows → e ∈ (collectWindows L now before).entries)
    (hafter : ∀ e ∈ (collectWindows L now' after).entries, e ∈ s.software)
    (hsources : ∀ state ∈ s.sources, state.source.OfWindows →
      state ∈ (collectWindows L now' after).sources)
    (hreads : ∀ reg ∈ after, reg.Reads truth)
    (h : change ∈ ((s.normalize L).diff L (t.normalize L)).softwareChanges)
    (hremoved : change.action = .removed) (hwindows : change.entry.source.OfWindows) :
    ∃ reg ∈ before, ∃ reg' ∈ after,
      (∃ p e, reg.Has L p e ∧
        change.entry = prepareEntry L inventorySchemaVersion t.agentId e ∧
        ProgramGone L reg' truth p e) ∨
      ∃ kb, reg.HasUpdate kb ∧
        change.entry = prepareEntry L inventorySchemaVersion t.agentId (updateEntry L kb) ∧
        ¬ truth.HasUpdate kb := by
  obtain ⟨raw, hraw, hentry, hname, hnone, state, hstate, hsource, hcomplete⟩ :=
    removed_entry hs ht hagent h hremoved
  have hrawsource : raw.source = change.entry.source := by
    rw [hentry, prepareEntry_source]
  have hreported := hbefore raw hraw (hrawsource ▸ hwindows)
  have hstated := hsources state hstate (hsource ▸ hwindows)
  have hlost : ∀ e ∈ (collectWindows L now' after).entries,
      (prepareEntry L inventorySchemaVersion t.agentId e).name = change.entry.name →
      (prepareEntry L inventorySchemaVersion t.agentId e).identityKey L inventorySchemaVersion
        ≠ change.entry.identityKey L inventorySchemaVersion := fun e he hsame =>
    hnone e (hafter e he) (hsame ▸ hname)
  cases before with
  | none => cases hreported
  | some reg =>
    cases after with
    | none =>
      -- a collection that panicked completes no source
      have hfailed : ∀ state ∈ (collectWindows L now' none).sources, state.status ≠ .complete := by
        intro state hstate
        rcases List.mem_cons.mp hstate with rfl | hstate
        · exact nofun
        rcases List.mem_cons.mp hstate with rfl | hstate
        · exact nofun
        · rw [List.mem_singleton.mp hstate]
          exact nofun
      exact absurd hcomplete (hfailed state hstated)
    | some reg' =>
      have hread := hreads reg' rfl
      refine ⟨reg, rfl, reg', rfl, ?_⟩
      rcases mem_collectSync.mp hreported with ⟨p, hp⟩ | ⟨kb, hkb, rfl⟩
      · obtain ⟨hnew, ⟨id, hid⟩, hkind⟩ := programEntry_new hp.entry
        have hnotKb : state.source ≠ .kb := by
          rw [hsource, ← hrawsource]
          rcases hkind with hkind | hkind <;> rw [hkind] <;> exact nofun
        obtain ⟨hall, hloaded⟩ := ((complete_source hstated).1 hnotKb).mp hcomplete
        refine .inl ⟨p, raw, hp, hentry, fun sid hsid => ?_, fun e' hp' hsame hmsi => ?_⟩
        · exact (hread.loaded hall).mp (hloaded sid (hread.profileListed hall hsid))
        · have hseen := hread.has hall hmsi hp'
          refine hlost e' (mem_collectSync.mpr (.inl ⟨p, hseen⟩)) ?_ ?_
          · rw [hentry, prepareEntry_name, prepareEntry_name, hsame.name]
          · rw [hentry, programEntry_same hp.entry hp'.entry hsame]
            exact prepareEntry_identity hnew hid _ _
      · have hkbSource : state.source = .kb := by
          rw [hsource, ← hrawsource]
          rfl
        have hall := ((complete_source hstated).2 hkbSource).mp hcomplete
        refine .inr ⟨kb, hkb, hentry, fun htruth => ?_⟩
        have hseen := hread.hasUpdate hall htruth
        exact hlost _ (mem_collectSync.mpr (.inr ⟨kb, hseen, rfl⟩)) (by rw [hentry]) (by rw [hentry])

end Removed

namespace Sample

def notFound : RegError := ⟨true, "The system cannot find the file specified."⟩

def machineView : String := "SOFTWARE\\Microsoft\\Windows\\CurrentVersion\\Uninstall"

/-- A machine with one program or none. -/
def hostWith (names : List String) : Registry where
  refused key name := if key = hkeyLocalMachine ∧ name ≠ machineView then some notFound else none
  enumKeys key := if key = hkeyLocalMachine ++ [machineView] then names.map .ok else []
  getString _ name := if name = "DisplayName" then .ok "7-Zip" else .error notFound
  getU32 _ _ := .error notFound

def hostSnapshot (names : List String) : InventorySnapshot :=
  let collected := collectWindows (libraries [] []) "2026-10-06T10:00:00Z" (some (hostWith names))
  .build inventorySchemaVersion collection collected.entries collected.sources

def sevenZip : SoftwareEntry :=
  SoftwareEntry.withInstance (libraries [] [])
    ⟨"7-Zip", none, none, some "x86_64", .winreg, none, none, none, none, none, none⟩ none .system
    (machineView ++ ":x86_64:7-Zip")

def sevenZipRemoved : SoftwareDeltaItem :=
  ⟨.removed, InventorySnapshot.prepareEntry (libraries [] []) inventorySchemaVersion
    collection.agentId sevenZip, none⟩

open InventorySnapshot in
theorem sevenZipRemoved_reported : sevenZipRemoved ∈
    (((hostSnapshot []).normalize (libraries [] [])).diff (libraries [] [])
      ((hostSnapshot ["7-Zip"]).normalize (libraries [] []))).softwareChanges := by
  have hcollected : sevenZip ∈ (hostSnapshot ["7-Zip"]).software := List.mem_singleton.mpr rfl
  have hprepared := find_prepared (L := libraries [] []) hcollected
    (by rw [prepareEntry_name]; decide)
  obtain ⟨p, hp⟩ := Option.ne_none_iff_exists'.mp hprepared
  have hmem := (of_find hp).1
  rw [normalize_software] at hmem
  obtain ⟨⟨raw, hraw, rfl⟩, -⟩ := mem_preparedSoftware.mp (Survivors.isBest_of_mem hmem).1
  have hsevenZip : raw = sevenZip := List.mem_singleton.mp hraw
  subst hsevenZip
  have hversions : ((hostSnapshot []).normalize (libraries [] [])).schemaVersion
      = ((hostSnapshot ["7-Zip"]).normalize (libraries [] [])).schemaVersion := rfl
  have hchanges := @mem_changes _ _ _ hversions (hostSnapshot []).pairwise_normalize
    (hostSnapshot ["7-Zip"]).pairwise_normalize sevenZipRemoved
  exact Stamped.mem_inOrder.mpr (hchanges.mpr (.inr ⟨_, _, hp, rfl, .inr rfl, rfl⟩))

/-- The program is not there any more. -/
theorem sevenZip_gone :
    ∃ reg ∈ some (hostWith ["7-Zip"]), ∃ reg' ∈ some (hostWith []),
      (∃ p e, reg.Has (libraries [] []) p e ∧
        sevenZipRemoved.entry = InventorySnapshot.prepareEntry (libraries [] [])
          inventorySchemaVersion collection.agentId e ∧
        ProgramGone (libraries [] []) reg' (hostWith []) p e) ∨
      ∃ kb, reg.HasUpdate kb ∧
        sevenZipRemoved.entry = InventorySnapshot.prepareEntry (libraries [] [])
          inventorySchemaVersion collection.agentId (updateEntry (libraries [] []) kb) ∧
        ¬ (hostWith []).HasUpdate kb := by
  have hreads : (hostWith []).Reads (hostWith []) :=
    ⟨fun _ _ => .inl rfl, fun _ => List.forall₂_same.mpr fun _ _ => .inl rfl,
      fun _ _ => .inl rfl, fun _ _ => .inl rfl⟩
  exact removed_gone (s := hostSnapshot []) (t := hostSnapshot ["7-Zip"])
    "2026-10-06T10:00:00Z" "2026-10-06T10:00:00Z" rfl rfl rfl
    (fun _ he _ => he) (fun _ he => he) (fun _ hstate _ => hstate)
    (fun reg hreg => Option.mem_some.mp hreg ▸ hreads) sevenZipRemoved_reported rfl (.inl rfl)

end Sample

end Lariska
