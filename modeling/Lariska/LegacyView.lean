import Lariska.Normalization

/-!
# The view of an older server

An older server takes schema version 1 only. A collection is then made into a
snapshot of version 2 and that one into version 1: the installations are
deduplicated by their identities first and by their products afterwards. This
module compares the result with the snapshot made in version 1 at once, the
sources version 1 does not know replaced: the products are the same, and so is
how new each one is.
-/

namespace Lariska

/-- The sources version 1 has no name for. -/
def SoftwareSource.legacy : SoftwareSource → SoftwareSource
  | .pacman | .macBundle => .other
  | source => source

/-- An entry with its source replaced. -/
def SoftwareEntry.withLegacySource (e : SoftwareEntry) : SoftwareEntry :=
  { e with source := e.source.legacy }

/-- What the loop of `into_v1` makes of an entry. -/
def SoftwareEntry.intoV1 (e : SoftwareEntry) : SoftwareEntry :=
  { e.withLegacySource with
    productIdentity := none
    installationIdentity := none
    packageId := none
    scope := none
    installInstanceId := none }

/-- `into_v1`. -/
def InventorySnapshot.intoV1 (L : Libraries) (s : InventorySnapshot) : InventorySnapshot :=
  { s with
    schemaVersion := legacyInventorySchemaVersion
    sources := []
    software := s.software.map SoftwareEntry.intoV1 }.normalize L

/-! ## Keys -/

/-- Everything of a comparison key but the source. -/
def SoftwareEntry.comparisonStem (L : Libraries) (e : SoftwareEntry) : String :=
  L.toLowercase e.name ++ "|" ++ L.toLowercase (e.publisher.getD "") ++ "|"
    ++ L.toLowercase (e.architecture.getD "")

theorem split_at_last {x y s t : List Char} (hs : '|' ∉ s) (ht : '|' ∉ t)
    (h : x ++ '|' :: s = y ++ '|' :: t) : x = y ∧ s = t := by
  rcases List.append_eq_append_iff.mp h with ⟨z, rfl, hz⟩ | ⟨z, rfl, hz⟩
  · cases z with
    | nil => exact ⟨(List.append_nil x).symm, (List.cons.inj hz).2⟩
    | cons c z => exact absurd ((List.cons.inj hz).2 ▸ by simp) hs
  · cases z with
    | nil => exact ⟨List.append_nil y, (List.cons.inj hz).2.symm⟩
    | cons c z => exact absurd ((List.cons.inj hz).2 ▸ by simp) ht

theorem SoftwareSource.asStr_inj {a b : SoftwareSource} (h : a.asStr = b.asStr) : a = b := by
  cases a <;> cases b <;> first | rfl | exact absurd h (by decide)

theorem SoftwareSource.no_bar (s : SoftwareSource) : '|' ∉ s.asStr.toList := by
  cases s <;> decide

/-- A comparison key tells the source. -/
theorem comparisonKey_inj {L : Libraries} {a b : SoftwareEntry}
    (h : a.comparisonKey L = b.comparisonKey L) :
    a.comparisonStem L = b.comparisonStem L ∧ a.source = b.source := by
  have hlist : ∀ e : SoftwareEntry, (e.comparisonKey L).toList
      = (e.comparisonStem L).toList ++ '|' :: e.source.asStr.toList := fun e => by
    unfold SoftwareEntry.comparisonKey SoftwareEntry.comparisonStem
    simp only [String.toList_append, List.append_assoc]
    rfl
  have hsplit := split_at_last a.source.no_bar b.source.no_bar
    (by rw [← hlist, ← hlist, h])
  exact ⟨String.toList_inj.mp hsplit.1, SoftwareSource.asStr_inj (String.toList_inj.mp hsplit.2)⟩

namespace SoftwareEntry

variable {L : Libraries} {e : SoftwareEntry}

/-- The key an entry gets in version 1. -/
abbrev legacyKey (L : Libraries) (e : SoftwareEntry) : String :=
  e.withLegacySource.comparisonKey L

/-- One product in version 2 is one product in version 1. -/
theorem legacyKey_congr {a b : SoftwareEntry} (h : a.comparisonKey L = b.comparisonKey L) :
    a.legacyKey L = b.legacyKey L := by
  obtain ⟨hstem, hsource⟩ := comparisonKey_inj h
  show a.comparisonStem L ++ "|" ++ a.source.legacy.asStr
    = b.comparisonStem L ++ "|" ++ b.source.legacy.asStr
  rw [hstem, hsource]

theorem normalize_scopeInstance (agentId : String) (h : e.normalize = e) :
    (e.scopeInstance L agentId).normalize = e.scopeInstance L agentId := by
  show e.normalize.scopeInstance L agentId = e.scopeInstance L agentId
  rw [h]

/-- Giving a normalized entry its identity leaves what its product key is made of. -/
theorem ensure_fields (h : e.normalize = e) :
    (e.ensureInstallationIdentity L).name = e.name
      ∧ (e.ensureInstallationIdentity L).version = e.version
      ∧ (e.ensureInstallationIdentity L).legacyKey L = e.legacyKey L := by
  show e.normalize.name = e.name ∧ e.normalize.version = e.version
    ∧ e.normalize.legacyKey L = e.legacyKey L
  rw [h]
  exact ⟨rfl, rfl, rfl⟩

theorem identify_fields (agentId : String) (h : e.normalize = e) :
    (e.identify L agentId).name = e.name ∧ (e.identify L agentId).version = e.version
      ∧ (e.identify L agentId).legacyKey L = e.legacyKey L := by
  obtain ⟨hname, hversion, hkey⟩ := ensure_fields (L := L) h
  unfold identify
  split_ifs with hnone
  · obtain ⟨hname', hversion', hkey'⟩ := ensure_fields (L := L)
      (normalize_scopeInstance (L := L) agentId (identified_ensure L e).normal)
    exact ⟨hname'.trans hname, hversion'.trans hversion, hkey'.trans hkey⟩
  · exact ⟨hname, hversion, hkey⟩

theorem normalize_intoV1 (h : e.normalize = e) : e.intoV1.normalize = e.intoV1 := by
  show { e.normalize.withLegacySource with
    productIdentity := none, installationIdentity := none, packageId := none, scope := none,
    installInstanceId := none } = _
  rw [h]
  rfl

end SoftwareEntry

namespace InventorySnapshot

variable {L : Libraries} {agentId : String} {software : List SoftwareEntry}

/-- An entry prepared in version 2 and in version 1. -/
theorem prepareEntry_fields (agentId : String) (raw : SoftwareEntry) :
    (prepareEntry L inventorySchemaVersion agentId raw).name
        = (prepareEntry L legacyInventorySchemaVersion agentId raw.withLegacySource).name
      ∧ entryRank L (prepareEntry L inventorySchemaVersion agentId raw)
        = entryRank L (prepareEntry L legacyInventorySchemaVersion agentId raw.withLegacySource)
      ∧ (prepareEntry L inventorySchemaVersion agentId raw).legacyKey L
        = (prepareEntry L legacyInventorySchemaVersion agentId
          raw.withLegacySource).comparisonKey L := by
  obtain ⟨hname, hversion, hkey⟩ := SoftwareEntry.identify_fields (L := L) agentId
    (SoftwareEntry.normalize_idem raw)
  unfold prepareEntry
  rw [if_pos rfl, if_neg (by decide)]
  exact ⟨hname, congrArg (versionRank L) hversion, hkey⟩

/-- The products of a collection with how new they are, prepared in one
version or the other. -/
theorem legacy_ranks (k : String) :
    {r | ∃ x ∈ preparedSoftware L inventorySchemaVersion agentId software,
        x.legacyKey L = k ∧ entryRank L x = r}
      = {r | ∃ x ∈ preparedSoftware L legacyInventorySchemaVersion agentId
        (software.map SoftwareEntry.withLegacySource),
        x.comparisonKey L = k ∧ entryRank L x = r} := by
  ext r
  constructor
  · rintro ⟨x, hx, rfl, rfl⟩
    obtain ⟨⟨raw, hraw, rfl⟩, hname⟩ := mem_preparedSoftware.mp hx
    obtain ⟨hn, hr, hk⟩ := prepareEntry_fields (L := L) agentId raw
    refine ⟨_, mem_preparedSoftware.mpr ⟨⟨raw.withLegacySource, List.mem_map_of_mem hraw, rfl⟩, ?_⟩,
      hk.symm, hr.symm⟩
    exact hn ▸ hname
  · rintro ⟨x, hx, rfl, rfl⟩
    obtain ⟨⟨legacy, hlegacy, rfl⟩, hname⟩ := mem_preparedSoftware.mp hx
    obtain ⟨raw, hraw, rfl⟩ := List.mem_map.mp hlegacy
    obtain ⟨hn, hr, hk⟩ := prepareEntry_fields (L := L) agentId raw
    exact ⟨_, mem_preparedSoftware.mpr ⟨⟨raw, hraw, rfl⟩, hn ▸ hname⟩, hk, hr⟩

/-- The identities of the entries of a collection are the hashes of different
inputs only if they differ. -/
def IdentitiesDistinct (L : Libraries) (agentId : String) (software : List SoftwareEntry) : Prop :=
  ∀ a ∈ software, ∀ b ∈ software,
    let a := prepareEntry L inventorySchemaVersion agentId a
    let b := prepareEntry L inventorySchemaVersion agentId b
    hashIdentity L (a.installationParts L) = hashIdentity L (b.installationParts L) →
      a.installationParts L = b.installationParts L

/-- One identity is one product. -/
theorem legacyKey_of_entryKey (h : IdentitiesDistinct L agentId software)
    {a b : SoftwareEntry} (ha : a ∈ preparedSoftware L inventorySchemaVersion agentId software)
    (hb : b ∈ preparedSoftware L inventorySchemaVersion agentId software)
    (hk : entryKey L inventorySchemaVersion a = entryKey L inventorySchemaVersion b) :
    a.legacyKey L = b.legacyKey L := by
  have hida := identified_of_mem ha
  have hidb := identified_of_mem hb
  have hhash : hashIdentity L (a.installationParts L) = hashIdentity L (b.installationParts L) := by
    have hsome : a.installationIdentity = b.installationIdentity := by
      rw [← entryKey_of_identified hida, hk, entryKey_of_identified hidb]
    rw [hida.installationIdentity, hidb.installationIdentity] at hsome
    exact Option.some.inj hsome
  obtain ⟨⟨rawa, hrawa, rfl⟩, -⟩ := mem_preparedSoftware.mp ha
  obtain ⟨⟨rawb, hrawb, rfl⟩, -⟩ := mem_preparedSoftware.mp hb
  have hparts := h rawa hrawa rawb hrawb hhash
  exact SoftwareEntry.legacyKey_congr (List.cons.inj (List.cons.inj hparts).2).1

/-- What `into_v1` normalizes is normalized already. -/
theorem prepared_intoV1 {kept : List SoftwareEntry}
    (h : ∀ e ∈ kept, e ∈ preparedSoftware L inventorySchemaVersion agentId software) :
    preparedSoftware L legacyInventorySchemaVersion agentId (kept.map SoftwareEntry.intoV1)
      = kept.map SoftwareEntry.intoV1 := by
  have hprepare : ∀ e ∈ kept, prepareEntry L legacyInventorySchemaVersion agentId e.intoV1
      = e.intoV1 := fun e he => by
    unfold prepareEntry
    rw [if_neg (by decide)]
    exact SoftwareEntry.normalize_intoV1 (identified_of_mem (h e he)).normal
  have hmap : (kept.map SoftwareEntry.intoV1).map
      (prepareEntry L legacyInventorySchemaVersion agentId) = kept.map SoftwareEntry.intoV1 := by
    rw [List.map_map]
    exact List.map_congr_left hprepare
  rw [preparedSoftware_eq, hmap, List.filter_eq_self]
  intro e he
  obtain ⟨e, hkept, rfl⟩ := List.mem_map.mp he
  exact decide_eq_true (mem_preparedSoftware.mp (h e hkept)).2

/-- The products of the two snapshots, with how new they are. -/
theorem intoV1_ranks (c : Collection) (sources : List CollectionSource)
    (h : IdentitiesDistinct L c.agentId software) (k : String) (r) :
    (∃ x ∈ ((newV2 L c software sources).intoV1 L).software,
        x.comparisonKey L = k ∧ entryRank L x = r)
      ↔ ∃ x ∈ (new L c (software.map SoftwareEntry.withLegacySource)).software,
        x.comparisonKey L = k ∧ entryRank L x = r := by
  have hkept : (newV2 L c software sources).software
      = Survivors.survivors (entryKey L inventorySchemaVersion) (entryRank L)
        (preparedSoftware L inventorySchemaVersion c.agentId software) := normalize_software _
  have hmem : ∀ e ∈ (newV2 L c software sources).software,
      e ∈ preparedSoftware L inventorySchemaVersion c.agentId software := fun e he =>
    (Survivors.isBest_of_mem (hkept ▸ he)).1
  have hinto : ((newV2 L c software sources).intoV1 L).software
      = Survivors.survivors (SoftwareEntry.comparisonKey L) (entryRank L)
        ((newV2 L c software sources).software.map SoftwareEntry.intoV1) := by
    refine (normalize_software _).trans ?_
    exact congrArg _ (prepared_intoV1 hmem)
  have hnew : (new L c (software.map SoftwareEntry.withLegacySource)).software
      = Survivors.survivors (SoftwareEntry.comparisonKey L) (entryRank L)
        (preparedSoftware L legacyInventorySchemaVersion c.agentId
          (software.map SoftwareEntry.withLegacySource)) := normalize_software _
  have hmap : {r | ∃ x ∈ (newV2 L c software sources).software.map SoftwareEntry.intoV1,
        x.comparisonKey L = k ∧ entryRank L x = r}
      = {r | ∃ x ∈ (newV2 L c software sources).software,
        x.legacyKey L = k ∧ entryRank L x = r} := by
    ext r
    constructor
    · rintro ⟨x, hx, hk, hr⟩
      obtain ⟨e, he, rfl⟩ := List.mem_map.mp hx
      exact ⟨e, he, hk, hr⟩
    · rintro ⟨e, he, hk, hr⟩
      exact ⟨e.intoV1, List.mem_map_of_mem he, hk, hr⟩
  rw [hinto, hnew, Survivors.survivors_isGreatest, Survivors.survivors_isGreatest, hmap, hkept,
    Survivors.isGreatest_survivors fun a ha b hb => legacyKey_of_entryKey h ha hb, legacy_ranks]

/-- **Both ways to a snapshot of version 1 have the same products**, each in a
version that compares equal. -/
theorem legacy_views_agree (L : Libraries) (c : Collection) (software : List SoftwareEntry)
    (sources : List CollectionSource) (hsha : IdentitiesDistinct L c.agentId software) :
    (∀ key : String,
      (∃ e ∈ ((newV2 L c software sources).intoV1 L).software, e.comparisonKey L = key)
        ↔ ∃ e ∈ (new L c (software.map SoftwareEntry.withLegacySource)).software,
          e.comparisonKey L = key) ∧
    ∀ a ∈ ((newV2 L c software sources).intoV1 L).software,
      ∀ b ∈ (new L c (software.map SoftwareEntry.withLegacySource)).software,
        a.comparisonKey L = b.comparisonKey L → compareVersions L a.version b.version = .eq := by
  have hranks := intoV1_ranks (L := L) c sources hsha
  refine ⟨fun key => ⟨?_, ?_⟩, fun a ha b hb hk => ?_⟩
  · rintro ⟨e, he, hk⟩
    obtain ⟨e', he', hk', -⟩ := (hranks key _).mp ⟨e, he, hk, rfl⟩
    exact ⟨e', he', hk'⟩
  · rintro ⟨e, he, hk⟩
    obtain ⟨e', he', hk', -⟩ := (hranks key _).mpr ⟨e, he, hk, rfl⟩
    exact ⟨e', he', hk'⟩
  · obtain ⟨b', hb', hkb, hr⟩ := (hranks _ _).mp ⟨a, ha, rfl, rfl⟩
    have hone : b' = b := eq_of_entryKey _ hb' hb (hkb.trans hk)
    rw [compareVersions_eq_iff]
    exact (hone ▸ hr).symm

end InventorySnapshot

namespace Sample

def installed (version place : String) : SoftwareEntry :=
  { package "zlib" version with source := .pacman, installInstanceId := some place }

/-- The digests of what the identity of the package in a place is made from. -/
def placeDigests (place inPlace endpoint installation : String) : List (Bytes × String) :=
  let parts := ["lariska-installation-v2", "zlib||x86_64|pacman", "zlib", "system"]
  [(identityBytes (parts ++ [place]), inPlace),
    (identityBytes ["lariska-endpoint-instance-v2", collection.agentId, place], endpoint),
    (identityBytes (parts ++ [endpoint]), installation)]

def twoPlaces : Libraries := libraries
  (placeDigests "/usr" "b91c9a03f23a2349125b06746cbae6a0b7642001bab2a165e0520c75dea6357a"
      "98205edb9e056565cde75f7768c967b9aed7fc249b6490c78a68a85e4a6011dd"
      "c8319889da6d6646737d865386f92773f6666f3bda7ace1b68778667211bb6ae"
    ++ placeDigests "/opt" "04eaeee1a61ee6f4a250adc542b749e498ae7ac8d75518cc2388a7850e791887"
      "66a0c4f8c3eec6f58f3b7241837e3aa32ebed1f53a3c1251e4e3d34f8c4c25a3"
      "e028ecf0990eb85410de7d6e44638dbdc81dfe2240f2d0955b3a2f96d067e0dd") []

end Sample

namespace InventorySnapshot

open Sample in
/-- Two installations of one package, of which the older is dropped only in
version 1. -/
theorem legacy_views_agree_zlib :
    let software := [installed "1.2.11" "/usr", installed "1.3.1" "/opt"]
    (newV2 twoPlaces collection software []).software.length = 2 ∧
    ∀ a ∈ ((newV2 twoPlaces collection software []).intoV1 twoPlaces).software,
      ∀ b ∈ (new twoPlaces collection (software.map SoftwareEntry.withLegacySource)).software,
        a.comparisonKey twoPlaces = b.comparisonKey twoPlaces →
          compareVersions twoPlaces a.version b.version = .eq := by
  intro software
  refine ⟨by decide +kernel, (legacy_views_agree twoPlaces collection software [] ?_).2⟩
  unfold IdentitiesDistinct
  decide +kernel

end InventorySnapshot

end Lariska
