import Lariska.Normalization
import Lariska.VersionOrder
import Lariska.JsonText

/-!
# The entries a snapshot keeps

Of the collected entries with a name, normalization keeps one of each group:
in schema version 1 a group is a product, in schema version 2 an installation,
which is a product, a package, a scope and an instance. The one kept has the
newest version, and what is dropped behind it is reported: each entry in schema
version 1, in schema version 2 those of another version.

An installation is told apart by the digest of its parts, so two are never
taken for one as long as no two of the digests collide.
-/

namespace Lariska

/-! ## What is hashed for an identity -/

theorem lengthBytes_inj {n m : Nat} (hn : n < 2 ^ 64) (hm : m < 2 ^ 64)
    (h : lengthBytes n = lengthBytes m) : n = m := by
  have hdigit : ∀ i < 8, n / 256 ^ (7 - i) % 256 = m / 256 ^ (7 - i) % 256 := by
    intro i hi
    have hget := congrArg (fun bytes => bytes[i]?) h
    simp only [lengthBytes, List.getElem?_map, List.getElem?_range hi, Option.map_some,
      Option.some_inj] at hget
    exact congrArg UInt8.toNat hget
  have h0 := hdigit 0 (by decide)
  have h1 := hdigit 1 (by decide)
  have h2 := hdigit 2 (by decide)
  have h3 := hdigit 3 (by decide)
  have h4 := hdigit 4 (by decide)
  have h5 := hdigit 5 (by decide)
  have h6 := hdigit 6 (by decide)
  have h7 := hdigit 7 (by decide)
  norm_num at h0 h1 h2 h3 h4 h5 h6 h7 hn hm
  omega

@[simp] theorem length_lengthBytes (n : Nat) : (lengthBytes n).length = 8 := by
  simp [lengthBytes]

/-- The bytes hashed for an identity say its parts. -/
theorem identityBytes_inj {ps qs : List String} (hp : ∀ part ∈ ps, part.utf8ByteSize < 2 ^ 64)
    (hq : ∀ part ∈ qs, part.utf8ByteSize < 2 ^ 64) (h : identityBytes ps = identityBytes qs) :
    ps = qs := by
  induction ps generalizing qs with
  | nil =>
    cases qs with
    | nil => rfl
    | cons q qs =>
      have hlength := congrArg List.length h
      simp [identityBytes] at hlength
      omega
  | cons p ps ih =>
    cases qs with
    | nil =>
      have hlength := congrArg List.length h
      simp [identityBytes] at hlength
    | cons q qs =>
      unfold identityBytes at h
      rw [List.flatMap_cons, List.flatMap_cons, List.append_assoc, List.append_assoc] at h
      obtain ⟨hsize, hrest⟩ := List.append_inj h (by simp)
      have hsize := lengthBytes_inj (hp p (by simp)) (hq q (by simp)) hsize
      obtain ⟨hbytes, hrest⟩ := List.append_inj hrest hsize
      rw [Json.bytes_inj hbytes, ih (fun part hpart => hp part (List.mem_cons_of_mem _ hpart))
        (fun part hpart => hq part (List.mem_cons_of_mem _ hpart)) hrest]

/-- **No collisions** among the digests of some lists of parts, none of them of
2 ^ 64 bytes or more. -/
structure Libraries.Separates (L : Libraries) (hashed : List (List String)) : Prop where
  fits : ∀ parts ∈ hashed, ∀ part ∈ parts, part.utf8ByteSize < 2 ^ 64
  distinct : ∀ ps ∈ hashed, ∀ qs ∈ hashed,
    L.sha256 (identityBytes ps) = L.sha256 (identityBytes qs) → identityBytes ps = identityBytes qs

variable {L : Libraries}

theorem Libraries.Separates.inj {hashed : List (List String)} (h : L.Separates hashed)
    {ps qs : List String} (hp : ps ∈ hashed) (hq : qs ∈ hashed) :
    hashIdentity L ps = hashIdentity L qs ↔ ps = qs :=
  ⟨fun heq => identityBytes_inj (h.fits ps hp) (h.fits qs hq) (h.distinct ps hp qs hq heq),
    fun heq => by rw [heq]⟩

/-! ## Installations -/

namespace SoftwareEntry

/-- What tells an installation apart: the product, the package, the scope and
the instance. -/
def installation (L : Libraries) (e : SoftwareEntry) :
    String × Option String × Option InstallationScope × Option String :=
  (e.comparisonKey L, e.packageId, e.scope, e.installInstanceId)

theorem scope_asStr_inj {s t : InstallationScope} : s.asStr = t.asStr ↔ s = t := by
  cases s <;> cases t <;> decide

/-- A package name that is there is not empty. -/
theorem Identified.packageId_ne {e : SoftwareEntry} (h : e.Identified L) :
    e.packageId ≠ some "" := by
  intro hempty
  have hnormal := h.packageId
  rw [hempty] at hnormal
  exact absurd hnormal (by decide)

theorem getD_inj {a b : Option String} (ha : a ≠ some "") (hb : b ≠ some "")
    (h : a.getD "" = b.getD "") : a = b := by
  cases a <;> cases b <;> simp_all

/-- The parts that are hashed say which installation it is. -/
theorem Identified.installationParts_inj {a b : SoftwareEntry} (ha : a.Identified L)
    (hb : b.Identified L) :
    a.installationParts L = b.installationParts L ↔ a.installation L = b.installation L := by
  obtain ⟨scope, hscope⟩ := ha.scope
  obtain ⟨scope', hscope'⟩ := hb.scope
  obtain ⟨id, hid⟩ := ha.installInstanceId
  obtain ⟨id', hid'⟩ := hb.installInstanceId
  unfold installationParts installation
  simp only [hscope, hscope', hid, hid', Option.getD_some, List.cons.injEq, Prod.mk.injEq,
    Option.some_inj, true_and, and_true, scope_asStr_inj]
  constructor
  · rintro ⟨hkey, hpackage, hrest⟩
    exact ⟨hkey, getD_inj ha.packageId_ne hb.packageId_ne hpackage, hrest⟩
  · rintro ⟨hkey, hpackage, hrest⟩
    exact ⟨hkey, by rw [hpackage], hrest⟩

/-- What scoping to the agent leaves of an entry. -/
theorem installation_identify {e : SoftwareEntry} (hnew : e.installationIdentity = none)
    (agentId : String) :
    (e.identify L agentId).installation L
      = ((e.prepare L).comparisonKey L, (e.prepare L).packageId, (e.prepare L).scope,
        some (hashIdentity L ["lariska-endpoint-instance-v2", agentId,
          (e.prepare L).installInstanceId.getD ""])) := by
  unfold identify
  rw [if_pos hnew]
  unfold installation ensureInstallationIdentity scopeInstance prepare normalize comparisonKey
  simp [architecture_idem]

/-- **What is hashed is unambiguous**: two lists of strings, of whatever
lengths, are written as the same bytes only if they are the same. Without
collisions, then, the identities of two entries, each scoped to an agent, are
equal exactly if the two are one installation: one product, one package, one
scope and one instance on one agent. -/
theorem hash_identity_unambiguous (L : Libraries) :
    (∀ ps qs : List String, (∀ part ∈ ps, part.utf8ByteSize < 2 ^ 64) →
      (∀ part ∈ qs, part.utf8ByteSize < 2 ^ 64) → identityBytes ps = identityBytes qs → ps = qs) ∧
    ∀ (agentId agentId' : String) (a b : SoftwareEntry),
      L.Separates [(a.identify L agentId).installationParts L,
        (b.identify L agentId').installationParts L] →
      ((a.identify L agentId).installationIdentity = (b.identify L agentId').installationIdentity ↔
        (a.identify L agentId).installation L = (b.identify L agentId').installation L) := by
  refine ⟨fun ps qs hp hq => identityBytes_inj hp hq, fun agentId agentId' a b hsep => ?_⟩
  have ha := identified_identify L agentId a
  have hb := identified_identify L agentId' b
  rw [ha.installationIdentity, hb.installationIdentity, Option.some_inj,
    hsep.inj List.mem_cons_self (List.mem_cons_of_mem _ List.mem_cons_self),
    ha.installationParts_inj hb]

end SoftwareEntry

/-! ## What is kept -/

namespace InventorySnapshot

variable {s : InventorySnapshot}

/-- What is hashed for the identities of the entries of a snapshot. -/
def hashedParts (L : Libraries) (s : InventorySnapshot) : List (List String) :=
  (s.prepared L).map (SoftwareEntry.installationParts L) ++ s.software.map fun e =>
    ["lariska-endpoint-instance-v2", s.agentId, (e.normalize.prepare L).installInstanceId.getD ""]

/-- **One group**: one installation in schema version 2, one product in 1. -/
def SameGroup (L : Libraries) (schemaVersion : Nat) (a b : SoftwareEntry) : Prop :=
  if schemaVersion = inventorySchemaVersion then a.installation L = b.installation L
  else a.comparisonKey L = b.comparisonKey L

/-- Entries of one key are entries of one group. -/
theorem entryKey_eq_iff
    (hhash : s.schemaVersion = inventorySchemaVersion → L.Separates (s.hashedParts L))
    {a b : SoftwareEntry} (ha : a ∈ s.prepared L) (hb : b ∈ s.prepared L) :
    entryKey L s.schemaVersion a = entryKey L s.schemaVersion b ↔ SameGroup L s.schemaVersion a b := by
  unfold SameGroup
  by_cases hv : s.schemaVersion = inventorySchemaVersion
  · have hsep := hhash hv
    have hparts : ∀ {e}, e ∈ s.prepared L → e.installationParts L ∈ s.hashedParts L := fun he =>
      List.mem_append_left _ (List.mem_map_of_mem he)
    have hid : ∀ {e}, e ∈ s.prepared L → e.Identified L := fun he => by
      unfold prepared at he
      rw [hv] at he
      exact identified_of_mem he
    have hkey : ∀ {e}, e ∈ s.prepared L →
        entryKey L inventorySchemaVersion e = hashIdentity L (e.installationParts L) := fun he => by
      have hsome := (entryKey_of_identified (hid he)).trans (hid he).installationIdentity
      exact Option.some_inj.mp hsome
    rw [if_pos hv, hv, hkey ha, hkey hb, hsep.inj (hparts ha) (hparts hb),
      (hid ha).installationParts_inj (hid hb)]
  · rw [if_neg hv]
    unfold entryKey SoftwareEntry.identityKey
    rw [if_neg hv, if_neg hv]

/-- An entry keeps its name, normalized. -/
theorem prepareEntry_name (schemaVersion : Nat) (agentId : String) (raw : SoftwareEntry) :
    (prepareEntry L schemaVersion agentId raw).name = normalizeRequiredString raw.name := by
  unfold prepareEntry
  split_ifs
  · unfold SoftwareEntry.identify
    split_ifs <;> simp [SoftwareEntry.ensureInstallationIdentity, SoftwareEntry.prepare,
      SoftwareEntry.scopeInstance, SoftwareEntry.normalize]
  · rfl

/-- The entries with a name are prepared. -/
theorem prepared_eq (s : InventorySnapshot) :
    s.prepared L = (s.software.filter fun raw => trim raw.name ≠ []).map
      (prepareEntry L s.schemaVersion s.agentId) := by
  unfold prepared
  rw [preparedSoftware_eq, List.filter_map]
  congr 1
  refine List.filter_congr fun raw _ => ?_
  rw [Function.comp_apply, prepareEntry_name]
  simp [normalizeRequiredString_eq_empty]

/-- Collected entries are of one installation when the product, the package, the
scope and the instance they were collected with are the same. -/
theorem sameInstallation_iff (hhash : L.Separates (s.hashedParts L)) {a b : SoftwareEntry}
    (ha : a ∈ s.software) (hb : b ∈ s.software) (hna : a.installationIdentity = none)
    (hnb : b.installationIdentity = none) :
    (prepareEntry L inventorySchemaVersion s.agentId a).installation L
        = (prepareEntry L inventorySchemaVersion s.agentId b).installation L
      ↔ (a.normalize.prepare L).installation L = (b.normalize.prepare L).installation L := by
  have hinstance : ∀ {e}, e ∈ s.software → ["lariska-endpoint-instance-v2", s.agentId,
      (e.normalize.prepare L).installInstanceId.getD ""] ∈ s.hashedParts L := fun he =>
    List.mem_append_right _ (List.mem_map_of_mem he)
  have hsome : ∀ e : SoftwareEntry, (e.normalize.prepare L).installInstanceId
      = some ((e.normalize.prepare L).installInstanceId.getD "") := fun e => by
    simp [SoftwareEntry.prepare]
  unfold prepareEntry
  rw [if_pos rfl, if_pos rfl, SoftwareEntry.installation_identify (e := a.normalize) hna,
    SoftwareEntry.installation_identify (e := b.normalize) hnb]
  unfold SoftwareEntry.installation
  rw [hsome a, hsome b]
  simp only [Prod.mk.injEq, Option.some_inj, Option.getD_some,
    hhash.inj (hinstance ha) (hinstance hb), List.cons.injEq, true_and, and_true]

/-- Every dropped entry is reported in schema version 1, in schema version 2
those of another version than the one kept. -/
theorem length_warnings (schemaVersion : Nat) (dropped : List (SoftwareEntry × SoftwareEntry)) :
    (dropped.flatMap fun d => d.1.duplicateWarning L schemaVersion d.2).length
      = if schemaVersion = inventorySchemaVersion then
          dropped.countP fun d => d.1.version ≠ d.2.version
        else dropped.length := by
  induction dropped with
  | nil => simp
  | cons d dropped ih =>
    rw [List.flatMap_cons, List.length_append, ih, SoftwareEntry.duplicateWarning]
    by_cases hv : schemaVersion = inventorySchemaVersion
    · simp only [hv, if_true, List.countP_cons]
      by_cases hd : d.1.version = d.2.version
      · simp [hd]
      · simp [hd, Nat.add_comm]
    · simp [hv, Nat.add_comm]

/-- **One entry of each group is kept, that of the newest version, in the order
of the keys, and what is dropped is reported**: every entry in schema version
1, those of another version in schema version 2. A group of schema version 2 is
an installation, and that is told by what the entry was collected with. -/
theorem normalize_keeps (s : InventorySnapshot)
    (hhash : s.schemaVersion = inventorySchemaVersion → L.Separates (s.hashedParts L)) :
    (∀ raw ∈ s.software, trim raw.name ≠ [] →
      ∃! e, e ∈ (s.normalize L).software ∧
        SameGroup L s.schemaVersion e (prepareEntry L s.schemaVersion s.agentId raw)) ∧
    (∀ e ∈ (s.normalize L).software,
      (∃ raw ∈ s.software, trim raw.name ≠ [] ∧
        prepareEntry L s.schemaVersion s.agentId raw = e) ∧
      ∀ raw ∈ s.software, trim raw.name ≠ [] →
        SameGroup L s.schemaVersion e (prepareEntry L s.schemaVersion s.agentId raw) →
        (compareVersions L (prepareEntry L s.schemaVersion s.agentId raw).version
          e.version).isLE = true) ∧
    (s.normalize L).software.Pairwise (fun a b =>
      a.identityKey L s.schemaVersion < b.identityKey L s.schemaVersion) ∧
    (∃ (dropped : List (SoftwareEntry × SoftwareEntry)) (warnings : List String),
      ((s.normalize L).software ++ dropped.map Prod.snd).Perm
        ((s.software.filter fun raw => trim raw.name ≠ []).map
          (prepareEntry L s.schemaVersion s.agentId)) ∧
      (∀ d ∈ dropped, d.1 ∈ (s.normalize L).software ∧ SameGroup L s.schemaVersion d.1 d.2) ∧
      (s.normalize L).collectorWarnings = s.collectorWarnings ++ warnings ∧
      warnings = dropped.flatMap (fun d => d.1.duplicateWarning L s.schemaVersion d.2) ∧
      warnings.length = if s.schemaVersion = inventorySchemaVersion then
          dropped.countP fun d => d.1.version ≠ d.2.version
        else dropped.length) ∧
    (s.schemaVersion = inventorySchemaVersion → ∀ a ∈ s.software, ∀ b ∈ s.software,
      a.installationIdentity = none → b.installationIdentity = none →
      (SameGroup L s.schemaVersion (prepareEntry L s.schemaVersion s.agentId a)
          (prepareEntry L s.schemaVersion s.agentId b)
        ↔ (a.normalize.prepare L).installation L = (b.normalize.prepare L).installation L)) := by
  have hgroup := fun {a b} ha hb => entryKey_eq_iff (L := L) (s := s) hhash (a := a) (b := b) ha hb
  have hprepared : ∀ raw ∈ s.software, trim raw.name ≠ [] →
      prepareEntry L s.schemaVersion s.agentId raw ∈ s.prepared L := by
    intro raw hraw hname
    rw [prepared_eq]
    exact List.mem_map_of_mem (List.mem_filter.mpr ⟨hraw, by simpa using hname⟩)
  have hkept : ∀ e ∈ (s.normalize L).software, e ∈ s.prepared L ∧
      Survivors.IsBest (entryKey L s.schemaVersion) (entryRank L) (s.prepared L) e := by
    intro e he
    rw [normalize_software] at he
    exact Survivors.isBest_of_mem he
  refine ⟨?_, ?_, s.pairwise_normalize, ?_, ?_⟩
  · intro raw hraw hname
    have hp := hprepared raw hraw hname
    obtain ⟨e, he, hkey⟩ :=
      Survivors.exists_survivor (entryKey L s.schemaVersion) (entryRank L) hp
    rw [← normalize_software] at he
    refine ⟨e, ⟨he, (hgroup (hkept e he).1 hp).mp hkey⟩, ?_⟩
    rintro e' ⟨he', hsame⟩
    exact s.eq_of_entryKey he' he (((hgroup (hkept e' he').1 hp).mpr hsame).trans hkey.symm)
  · intro e he
    obtain ⟨hmem, hbest⟩ := hkept e he
    constructor
    · rw [prepared_eq] at hmem
      obtain ⟨raw, hraw, heq⟩ := List.mem_map.mp hmem
      exact ⟨raw, (List.mem_filter.mp hraw).1, by simpa using (List.mem_filter.mp hraw).2, heq⟩
    · intro raw hraw hname hsame
      have hp := hprepared raw hraw hname
      exact isLE_compareVersions.mpr (hbest _ hp ((hgroup hmem hp).mpr hsame).symm)
  · obtain ⟨dropped, hperm, hpairs, hnotices⟩ := Survivors.exists_dropped
      (entryKey L s.schemaVersion) (entryRank L)
      (SoftwareEntry.duplicateWarning L s.schemaVersion) (s.prepared L)
    rw [← normalize_software] at hperm hpairs
    have hmem : ∀ d ∈ dropped, d.2 ∈ s.prepared L := fun d hd =>
      hperm.mem_iff.mp (List.mem_append_right _ (List.mem_map_of_mem hd))
    refine ⟨dropped, _, ?_, ?_, ?_, rfl, ?_⟩
    · rw [← prepared_eq]
      exact hperm
    · intro d hd
      obtain ⟨hin, hkey⟩ := hpairs d hd
      exact ⟨hin, (hgroup (hkept d.1 hin).1 (hmem d hd)).mp hkey⟩
    · rw [normalize_collectorWarnings, hnotices]
    · exact length_warnings s.schemaVersion dropped
  · intro hv a ha b hb hna hnb
    unfold SameGroup
    rw [if_pos hv, hv]
    exact sameInstallation_iff (hhash hv) ha hb hna hnb

end InventorySnapshot

namespace Sample

/-- The instance of a package by its name, and that scoped to the agent. -/
def curlInstance : String := "351d42389b501579edffbf53a4ff479b7139331d1088f76579292b351c2170ea"
def curlEndpointInstance : String := "660514d381936926f920df09c8107dc97624e2857d0418d0b2448fe48a4ba22a"

/-- The digests of a package without publisher, and of no other. -/
def curlDigests : List (Bytes × String) :=
  [(identityBytes ["lariska-install-instance-v2", "curl"], curlInstance),
    (identityBytes ["lariska-endpoint-instance-v2", collection.agentId, curlInstance],
      curlEndpointInstance),
    (identityBytes ["lariska-installation-v2", "curl||x86_64|dpkg", "curl", "system", curlInstance],
      "dd46e28aff5f49799dd6d31b1f9dcbb20e8d338634448cf24d556788565f8806"),
    (identityBytes
      ["lariska-installation-v2", "curl||x86_64|dpkg", "curl", "system", curlEndpointInstance],
      "b0c7ee3f438bdb523243ba1a4169532b380f75f6572f453db7ec9f2e23977a48")]

/-- Two builds of one package, and an entry without a name. -/
def twoBuilds : InventorySnapshot :=
  InventorySnapshot.build inventorySchemaVersion collection
    [package "curl" "1.9.0", package " " "1.0", package "curl" "1.10.0"] []

theorem separates_twoBuilds :
    (libraries curlDigests []).Separates (twoBuilds.hashedParts (libraries curlDigests [])) :=
  ⟨by decide +kernel, by decide +kernel⟩

/-- The two builds have one identity. -/
theorem one_identity :
    (((package "curl" "1.9.0").identify (libraries curlDigests []) "agent").installationIdentity
        = ((package "curl" "1.10.0").identify (libraries curlDigests []) "agent").installationIdentity
      ↔ ((package "curl" "1.9.0").identify (libraries curlDigests []) "agent").installation
          (libraries curlDigests [])
        = ((package "curl" "1.10.0").identify (libraries curlDigests []) "agent").installation
          (libraries curlDigests [])) :=
  (SoftwareEntry.hash_identity_unambiguous _).2 _ _ _ _ ⟨by decide +kernel, by decide +kernel⟩

/-- One of the two builds is kept. -/
theorem one_build_kept :
    ∃! e, e ∈ (twoBuilds.normalize (libraries curlDigests [])).software ∧
      InventorySnapshot.SameGroup (libraries curlDigests []) inventorySchemaVersion e
        (InventorySnapshot.prepareEntry (libraries curlDigests []) inventorySchemaVersion
          collection.agentId (package "curl" "1.9.0")) :=
  (InventorySnapshot.normalize_keeps twoBuilds fun _ => separates_twoBuilds).1
    (package "curl" "1.9.0") List.mem_cons_self (by decide)

/-- It is the newer one. -/
example : (twoBuilds.normalize (libraries curlDigests [])).software.map (fun e => e.version)
    = [some "1.10.0"] := by decide +kernel

end Sample

end Lariska
