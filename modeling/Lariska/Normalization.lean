import Lariska.NormalText
import Lariska.Survivors
import Lariska.Latest

/-!
# The normalization of a snapshot

Before a snapshot is sent or digested it is normalized: its texts are brought
to one form, identifiers are sorted and repeated ones left out, and of the
software one row for each key is kept, that of the newest version. In schema
version 2 the key is the identity of an installation, which is computed here
on first sight and scoped to the agent; in schema version 1 it is the product.

Normalizing twice is normalizing once.
-/

namespace Lariska

/-! ## Identities -/

/-- A length as eight bytes, the highest first. -/
def lengthBytes (n : Nat) : Bytes := (List.range 8).map fun i => UInt8.ofNat (n / 256 ^ (7 - i))

/-- What `hash_identity` hashes. -/
def identityBytes (parts : List String) : Bytes :=
  parts.flatMap fun part => lengthBytes part.utf8ByteSize ++ Json.bytes part

def hashIdentity (L : Libraries) (parts : List String) : String := L.sha256 (identityBytes parts)

namespace SoftwareEntry

def normalize (e : SoftwareEntry) : SoftwareEntry :=
  { e with
    name := normalizeRequiredString e.name
    version := normalizeOptionalString e.version
    publisher := normalizeOptionalString e.publisher
    architecture := (normalizeOptionalString e.architecture).map normalizeArchitecture
    installLocation := normalizeOptionalString e.installLocation }

/-- The scope of an entry whose collector gave none. -/
def defaultScope : SoftwareSource → InstallationScope
  | .pip | .npm | .java => .runtime
  | _ => .system

/-- The instance of an entry whose collector gave none: its place, its package
or, so that parallel installations stay apart, its version. -/
def nativeInstance (e : SoftwareEntry) : String :=
  (e.installLocation.or e.packageId).getD (e.version.getD "unknown")

/-- What the identity of an installation is the hash of. -/
def installationParts (L : Libraries) (e : SoftwareEntry) : List String :=
  ["lariska-installation-v2", e.comparisonKey L, e.packageId.getD "",
    (e.scope.getD .system).asStr, e.installInstanceId.getD ""]

/-- The first half of `ensure_installation_identity`: what the identity is
computed from. -/
def prepare (L : Libraries) (entry : SoftwareEntry) : SoftwareEntry :=
  let e := { entry.normalize with packageId := normalizeOptionalString entry.packageId }
  { e with
    scope := some (e.scope.getD (defaultScope e.source))
    installInstanceId := some (e.installInstanceId.getD
      (hashIdentity L ["lariska-install-instance-v2", e.nativeInstance])) }

/-- `ensure_installation_identity`. -/
def ensureInstallationIdentity (L : Libraries) (entry : SoftwareEntry) : SoftwareEntry :=
  { entry.prepare L with
    installationIdentity := some (hashIdentity L ((entry.prepare L).installationParts L))
    productIdentity := some ((entry.prepare L).comparisonKey L)
    installLocation := none }

/-- `identity_key`. -/
def identityKey (L : Libraries) (schemaVersion : Nat) (e : SoftwareEntry) : String :=
  if schemaVersion = inventorySchemaVersion then e.installationIdentity.getD (e.comparisonKey L)
  else e.comparisonKey L

/-- An instance scoped to the agent. -/
def scopeInstance (L : Libraries) (agentId : String) (e : SoftwareEntry) : SoftwareEntry :=
  { e with installInstanceId := some (hashIdentity L
      ["lariska-endpoint-instance-v2", agentId, e.installInstanceId.getD ""]) }

/-- The loop over the entries of a snapshot of schema version 2. The instance
is scoped to the agent when the entry is seen for the first time. -/
def identify (L : Libraries) (agentId : String) (e : SoftwareEntry) : SoftwareEntry :=
  if e.installationIdentity = none then
    ((e.ensureInstallationIdentity L).scopeInstance L agentId).ensureInstallationIdentity L
  else e.ensureInstallationIdentity L

/-- The order of `sort_by`: by key, the newest version of a key first. -/
def sortOrder (L : Libraries) (schemaVersion : Nat) (left right : SoftwareEntry) : Ordering :=
  (compare (left.identityKey L schemaVersion) (right.identityKey L schemaVersion)).then
    (compareVersions L right.version left.version)

/-- What is said of an entry dropped behind the one kept. -/
def duplicateWarning (L : Libraries) (schemaVersion : Nat) (last entry : SoftwareEntry) :
    List String :=
  if schemaVersion = inventorySchemaVersion then
    if last.version ≠ entry.version then
      ["conflicting versions for installation " ++ entry.installationIdentity.getD "unknown"]
    else []
  else
    [entry.name ++ " is installed more than once (" ++ entry.comparisonKey L
      ++ "); the server's inventory key does not carry a version, so only "
      ++ last.version.getD "no version" ++ " was sent and "
      ++ entry.version.getD "no version" ++ " was dropped"]

end SoftwareEntry

/-! ## Snapshots -/

def EndpointIdentifier.order (left right : EndpointIdentifier) : Ordering :=
  (compare left.identifierType.ctorIdx right.identifierType.ctorIdx).then
    (compare left.valueHash right.valueHash)

/-- `deduplicate_software`: the loop, with what is kept and said so far. -/
def deduplicate (L : Libraries) (schemaVersion : Nat) :
    List SoftwareEntry → List String → List SoftwareEntry → List SoftwareEntry × List String
  | deduped, warnings, [] => (deduped, warnings)
  | deduped, warnings, entry :: rest =>
    match deduped.getLast? with
    | some last =>
      if last.identityKey L schemaVersion = entry.identityKey L schemaVersion then
        deduplicate L schemaVersion deduped
          (warnings ++ last.duplicateWarning L schemaVersion entry) rest
      else deduplicate L schemaVersion (deduped ++ [entry]) warnings rest
    | none => deduplicate L schemaVersion (deduped ++ [entry]) warnings rest

namespace InventorySnapshot

/-- The identifiers of `normalize`: none empty, sorted, none twice in a row. -/
def normalIdentifiers (identifiers : List EndpointIdentifier) : List EndpointIdentifier :=
  ((identifiers.filter fun i => trim i.valueHash ≠ []).insertionSort
    fun left right => (left.order right).isLE).destutter (· ≠ ·)

/-- The entries of `normalize` before they are sorted. -/
def preparedSoftware (L : Libraries) (schemaVersion : Nat) (agentId : String)
    (software : List SoftwareEntry) : List SoftwareEntry :=
  let entries := software.map SoftwareEntry.normalize
  let entries := if schemaVersion = inventorySchemaVersion then
    entries.map (SoftwareEntry.identify L agentId) else entries
  entries.filter fun entry => entry.name ≠ ""

/-- `sort_by`. -/
def sortedSoftware (L : Libraries) (schemaVersion : Nat) (software : List SoftwareEntry) :
    List SoftwareEntry :=
  software.insertionSort fun left right => (left.sortOrder L schemaVersion right).isLE

def normalize (L : Libraries) (s : InventorySnapshot) : InventorySnapshot :=
  let kept := deduplicate L s.schemaVersion [] [] (sortedSoftware L s.schemaVersion
    (preparedSoftware L s.schemaVersion s.agentId s.software))
  { s with
    identifiers := normalIdentifiers s.identifiers
    software := kept.1
    collectorWarnings := s.collectorWarnings ++ kept.2
    sources := if s.schemaVersion = inventorySchemaVersion then
      s.sources.insertionSort fun left right => left.source.ctorIdx ≤ right.source.ctorIdx
      else s.sources }

end InventorySnapshot

/-- What a collection gives besides the software and its sources: the other
arguments of `new` and `new_v2`. -/
structure Collection where
  snapshotId : String
  agentId : String
  collectedAt : String
  hostname : String
  osFamily : Option String
  osName : Option String
  osVersion : Option String
  osArch : Option String
  agentVersion : String
  labels : List (String × String)
  identifiers : List EndpointIdentifier
  collectorWarnings : List String

namespace InventorySnapshot

/-- A snapshot as it is built, before it is normalized. -/
def build (schemaVersion : Nat) (c : Collection) (software : List SoftwareEntry)
    (sources : List CollectionSource) : InventorySnapshot where
  schemaVersion := schemaVersion
  snapshotId := c.snapshotId
  agentId := c.agentId
  collectedAt := c.collectedAt
  hostname := c.hostname
  osFamily := c.osFamily
  osName := c.osName
  osVersion := c.osVersion
  osArch := c.osArch
  agentVersion := c.agentVersion
  labels := c.labels
  identifiers := c.identifiers
  software := software
  collectorWarnings := c.collectorWarnings
  sources := sources

def new (L : Libraries) (c : Collection) (software : List SoftwareEntry) : InventorySnapshot :=
  (build legacyInventorySchemaVersion c software []).normalize L

def newV2 (L : Libraries) (c : Collection) (software : List SoftwareEntry)
    (sources : List CollectionSource) : InventorySnapshot :=
  (build inventorySchemaVersion c software sources).normalize L

end InventorySnapshot

/-! ## Entries that are normalized already -/

namespace SoftwareEntry

variable {L : Libraries} {agentId : String} {schemaVersion : Nat} {e : SoftwareEntry}

theorem normalize_idem (e : SoftwareEntry) : e.normalize.normalize = e.normalize := by
  unfold normalize
  simp only [normalizeRequiredString_idem, normalizeOptionalString_idem, architecture_idem]

/-- Normalized, and with its identity. -/
structure Identified (L : Libraries) (e : SoftwareEntry) : Prop where
  normal : e.normalize = e
  packageId : normalizeOptionalString e.packageId = e.packageId
  scope : ∃ scope, e.scope = some scope
  installInstanceId : ∃ id, e.installInstanceId = some id
  installLocation : e.installLocation = none
  productIdentity : e.productIdentity = some (e.comparisonKey L)
  installationIdentity : e.installationIdentity = some (hashIdentity L (e.installationParts L))

theorem identified_ensure (L : Libraries) (e : SoftwareEntry) :
    (e.ensureInstallationIdentity L).Identified L := by
  constructor
  · unfold ensureInstallationIdentity prepare normalize
    simp only [normalizeRequiredString_idem, normalizeOptionalString_idem, architecture_idem,
      normalizeOptionalString_none]
  · exact normalizeOptionalString_idem e.packageId
  · exact ⟨_, rfl⟩
  · exact ⟨_, rfl⟩
  · rfl
  · rfl
  · rfl

theorem Identified.prepare (h : e.Identified L) : e.prepare L = e := by
  obtain ⟨scope, hscope⟩ := h.scope
  obtain ⟨id, hid⟩ := h.installInstanceId
  unfold SoftwareEntry.prepare
  rw [h.normal, h.packageId]
  show { e with scope := some (e.scope.getD _), installInstanceId := some (e.installInstanceId.getD _) } = e
  rw [hscope, hid, Option.getD_some, Option.getD_some, ← hscope, ← hid]

theorem Identified.ensure (h : e.Identified L) : e.ensureInstallationIdentity L = e := by
  unfold ensureInstallationIdentity
  rw [h.prepare, ← h.installationIdentity, ← h.productIdentity, ← h.installLocation]

theorem identified_identify (L : Libraries) (agentId : String) (e : SoftwareEntry) :
    (e.identify L agentId).Identified L := by
  unfold identify
  split_ifs
  · exact identified_ensure L _
  · exact identified_ensure L e

theorem Identified.identify (h : e.Identified L) : e.identify L agentId = e := by
  unfold SoftwareEntry.identify
  rw [if_neg (by simp [h.installationIdentity]), h.ensure]

end SoftwareEntry

/-! ## What is kept is the best of each key -/

section Software

variable {L : Libraries} {agentId : String} {schemaVersion : Nat}

/-- What the entries are grouped by. -/
abbrev entryKey (L : Libraries) (schemaVersion : Nat) (e : SoftwareEntry) : String :=
  e.identityKey L schemaVersion

/-- What they are ranked by. -/
abbrev entryRank (L : Libraries) (e : SoftwareEntry) : WithBot (List (String ⊕ₗ ℕ)) :=
  versionRank L e.version

theorem sortOrder_isLE {left right : SoftwareEntry} :
    (left.sortOrder L schemaVersion right).isLE = true
      ↔ Survivors.Before (entryKey L schemaVersion) (entryRank L) left right := by
  have hver : (compareVersions L right.version left.version).isLE = true
      ↔ entryRank L right ≤ entryRank L left := by
    rw [Ordering.isLE_iff_ne_gt]
    exact (compareVersions_compares L right.version left.version).ne_gt
  unfold SoftwareEntry.sortOrder Survivors.Before
  rw [Ordering.isLE_then_iff_or, compare_lt_iff_lt, compare_eq_iff_eq, hver]

theorem sortedSoftware_eq (software : List SoftwareEntry) :
    InventorySnapshot.sortedSoftware L schemaVersion software
      = Survivors.arrange (entryKey L schemaVersion) (entryRank L) software := by
  unfold InventorySnapshot.sortedSoftware Survivors.arrange
  congr 1
  funext left right
  exact propext sortOrder_isLE

/-- The loop keeps the first of each key and says what it says of the others. -/
theorem deduplicate_append (deduped : List SoftwareEntry) (last : SoftwareEntry)
    (warnings : List String) (rest : List SoftwareEntry) :
    deduplicate L schemaVersion (deduped ++ [last]) warnings rest
      = (deduped ++ rest.destutter' (Survivors.Fresh (entryKey L schemaVersion)) last,
        warnings ++ Survivors.notices (entryKey L schemaVersion)
          (SoftwareEntry.duplicateWarning L schemaVersion) last rest) := by
  induction rest generalizing deduped last warnings with
  | nil => simp [deduplicate, Survivors.notices]
  | cons entry rest ih =>
    unfold deduplicate
    rw [List.getLast?_concat]
    by_cases h : last.identityKey L schemaVersion = entry.identityKey L schemaVersion
    · have hf : ¬ Survivors.Fresh (entryKey L schemaVersion) last entry := not_not.mpr h
      simp only [h, if_true]
      rw [ih, List.destutter'_cons_neg _ hf, Survivors.notices, if_neg hf, List.append_assoc]
    · have hf : Survivors.Fresh (entryKey L schemaVersion) last entry := h
      simp only [h, if_false]
      rw [ih, List.destutter'_cons_pos _ hf, Survivors.notices, if_pos hf, List.append_assoc,
        List.singleton_append]

theorem deduplicate_eq (software : List SoftwareEntry) :
    deduplicate L schemaVersion [] [] software
      = (software.destutter (Survivors.Fresh (entryKey L schemaVersion)),
        Survivors.dropNotices (entryKey L schemaVersion)
          (SoftwareEntry.duplicateWarning L schemaVersion) software) := by
  cases software with
  | nil => rfl
  | cons entry rest => exact deduplicate_append [] entry [] rest

namespace InventorySnapshot

/-- An entry as it is prepared. -/
def prepareEntry (L : Libraries) (schemaVersion : Nat) (agentId : String) (e : SoftwareEntry) :
    SoftwareEntry :=
  if schemaVersion = inventorySchemaVersion then e.normalize.identify L agentId else e.normalize

theorem preparedSoftware_eq (software : List SoftwareEntry) :
    preparedSoftware L schemaVersion agentId software
      = (software.map (prepareEntry L schemaVersion agentId)).filter fun e => e.name ≠ "" := by
  unfold preparedSoftware prepareEntry
  by_cases hv : schemaVersion = inventorySchemaVersion
  · simp only [hv, if_true, List.map_map]
    rfl
  · simp only [hv, if_false]

theorem mem_preparedSoftware {software : List SoftwareEntry} {e : SoftwareEntry} :
    e ∈ preparedSoftware L schemaVersion agentId software
      ↔ (∃ raw ∈ software, prepareEntry L schemaVersion agentId raw = e) ∧ e.name ≠ "" := by
  rw [preparedSoftware_eq, List.mem_filter, List.mem_map, decide_eq_true_iff]

/-- A prepared entry of schema version 2 has its identity, and that is its key. -/
theorem identified_of_mem {software : List SoftwareEntry} {e : SoftwareEntry}
    (he : e ∈ preparedSoftware L inventorySchemaVersion agentId software) : e.Identified L := by
  obtain ⟨⟨raw, -, rfl⟩, -⟩ := mem_preparedSoftware.mp he
  unfold prepareEntry
  rw [if_pos rfl]
  exact SoftwareEntry.identified_identify L agentId _

theorem entryKey_of_identified {e : SoftwareEntry} (h : e.Identified L) :
    some (entryKey L inventorySchemaVersion e) = e.installationIdentity := by
  unfold entryKey SoftwareEntry.identityKey
  rw [if_pos rfl, h.installationIdentity, Option.getD_some]

/-- The entries a snapshot is normalized from. -/
def prepared (L : Libraries) (s : InventorySnapshot) : List SoftwareEntry :=
  preparedSoftware L s.schemaVersion s.agentId s.software

theorem normalize_software (s : InventorySnapshot) :
    (s.normalize L).software
      = Survivors.survivors (entryKey L s.schemaVersion) (entryRank L) (s.prepared L) := by
  unfold normalize
  rw [deduplicate_eq, sortedSoftware_eq]
  rfl

theorem normalize_collectorWarnings (s : InventorySnapshot) :
    (s.normalize L).collectorWarnings = s.collectorWarnings
      ++ Survivors.dropNotices (entryKey L s.schemaVersion)
        (SoftwareEntry.duplicateWarning L s.schemaVersion)
        (Survivors.arrange (entryKey L s.schemaVersion) (entryRank L) (s.prepared L)) := by
  unfold normalize
  rw [deduplicate_eq, sortedSoftware_eq]
  rfl

/-- A prepared entry goes through the preparation unchanged. -/
theorem preparedSoftware_of {software raw : List SoftwareEntry}
    (h : ∀ e ∈ software, e ∈ preparedSoftware L schemaVersion agentId raw) :
    preparedSoftware L schemaVersion agentId software = software := by
  have hname : ∀ e ∈ software, e.name ≠ "" := fun e he => by
    simpa using (List.mem_filter.mp (h e he)).2
  unfold preparedSoftware at h ⊢
  by_cases hv : schemaVersion = inventorySchemaVersion
  · have hid : ∀ e ∈ software, e.Identified L := fun e he => by
      have hmem := (List.mem_filter.mp (h e he)).1
      simp only [hv, if_true] at hmem
      obtain ⟨e, -, rfl⟩ := List.mem_map.mp hmem
      exact SoftwareEntry.identified_identify L agentId e
    simp only [hv, if_true]
    have hmap : (software.map SoftwareEntry.normalize).map (SoftwareEntry.identify L agentId)
        = software := by
      rw [List.map_map]
      refine (List.map_congr_left fun e he => ?_).trans (List.map_id software)
      show (e.normalize).identify L agentId = e
      rw [(hid e he).normal, (hid e he).identify]
    rw [hmap]
    exact List.filter_eq_self.mpr fun e he => by simpa using hname e he
  · have hid : ∀ e ∈ software, e.normalize = e := fun e he => by
      have hmem := (List.mem_filter.mp (h e he)).1
      simp only [hv, if_false] at hmem
      obtain ⟨e, -, rfl⟩ := List.mem_map.mp hmem
      exact SoftwareEntry.normalize_idem e
    simp only [hv, if_false]
    rw [(List.map_congr_left hid).trans (List.map_id' software)]
    exact List.filter_eq_self.mpr fun e he => by simpa using hname e he

theorem prepared_normalize (s : InventorySnapshot) :
    (s.normalize L).prepared L = (s.normalize L).software := by
  have hmem : ∀ e ∈ (s.normalize L).software, e ∈ s.prepared L := fun e he => by
    rw [normalize_software] at he
    exact (Survivors.isBest_of_mem he).1
  exact preparedSoftware_of hmem

@[simp] theorem normalize_schemaVersion (s : InventorySnapshot) :
    (s.normalize L).schemaVersion = s.schemaVersion := rfl

/-- The keys of the software of a normalized snapshot increase. -/
theorem pairwise_normalize (s : InventorySnapshot) :
    (s.normalize L).software.Pairwise fun a b =>
      entryKey L s.schemaVersion a < entryKey L s.schemaVersion b := by
  rw [normalize_software]
  exact Survivors.pairwise_survivors _ _ _

/-- There is one entry for each key. -/
theorem eq_of_entryKey (s : InventorySnapshot) {a b : SoftwareEntry}
    (ha : a ∈ (s.normalize L).software) (hb : b ∈ (s.normalize L).software)
    (hk : entryKey L s.schemaVersion a = entryKey L s.schemaVersion b) : a = b := by
  by_contra hne
  have : Std.Symm fun a b : SoftwareEntry =>
      entryKey L s.schemaVersion a ≠ entryKey L s.schemaVersion b := ⟨fun _ _ => Ne.symm⟩
  have hkeys : (s.normalize L).software.Pairwise fun a b =>
      entryKey L s.schemaVersion a ≠ entryKey L s.schemaVersion b :=
    s.pairwise_normalize.imp fun h => h.ne
  exact hkeys.forall ha hb hne hk

end InventorySnapshot

end Software

/-! ## Twice is once -/

/-- An identifier in the order of identifiers. -/
def EndpointIdentifier.rank (i : EndpointIdentifier) : ℕ ×ₗ String :=
  toLex (i.identifierType.ctorIdx, i.valueHash)

theorem EndpointIdentifier.order_isLE {left right : EndpointIdentifier} :
    (left.order right).isLE = true ↔ left.rank ≤ right.rank := by
  have hvalue : (compare left.valueHash right.valueHash).isLE = true
      ↔ left.valueHash ≤ right.valueHash := by
    rw [Ordering.isLE_iff_ne_gt]
    exact (compare_compares left.valueHash right.valueHash).ne_gt
  unfold EndpointIdentifier.order EndpointIdentifier.rank
  rw [Ordering.isLE_then_iff_or, compare_lt_iff_lt, compare_eq_iff_eq, Prod.Lex.le_iff, hvalue]
  rfl

namespace InventorySnapshot

variable (L : Libraries) (s : InventorySnapshot)

theorem normalIdentifiers_eq (identifiers : List EndpointIdentifier) :
    normalIdentifiers identifiers = (Stamped.inOrder EndpointIdentifier.rank
      (identifiers.filter fun i => trim i.valueHash ≠ [])).destutter (· ≠ ·) := by
  unfold normalIdentifiers Stamped.inOrder
  congr 2
  funext left right
  exact propext EndpointIdentifier.order_isLE

theorem normalIdentifiers_idem (identifiers : List EndpointIdentifier) :
    normalIdentifiers (normalIdentifiers identifiers) = normalIdentifiers identifiers := by
  rw [normalIdentifiers_eq (normalIdentifiers identifiers)]
  have hsub : (normalIdentifiers identifiers).Sublist (Stamped.inOrder EndpointIdentifier.rank
      (identifiers.filter fun i => trim i.valueHash ≠ [])) := by
    rw [normalIdentifiers_eq]
    exact List.destutter_sublist _ _
  have hfilter : (normalIdentifiers identifiers).filter (fun i => trim i.valueHash ≠ [])
      = normalIdentifiers identifiers :=
    List.filter_eq_self.mpr fun i hi => by
      have hkept := Stamped.mem_inOrder.mp (hsub.subset hi)
      exact (List.mem_filter.mp hkept).2
  have hsorted : (normalIdentifiers identifiers).Pairwise fun a b => a.rank ≤ b.rank :=
    (Stamped.pairwise_inOrder _ _).sublist hsub
  rw [hfilter, Stamped.inOrder_of_pairwise hsorted, normalIdentifiers_eq, List.destutter_idem]

/-- What a normalized snapshot is normalized to. -/
theorem normalize_of (hidentifiers : normalIdentifiers s.identifiers = s.identifiers)
    (hsoftware : (s.normalize L).software = s.software)
    (hwarnings : (s.normalize L).collectorWarnings = s.collectorWarnings)
    (hsources : (s.normalize L).sources = s.sources) : s.normalize L = s := by
  calc s.normalize L
      = { s with
          identifiers := normalIdentifiers s.identifiers
          software := (s.normalize L).software
          collectorWarnings := (s.normalize L).collectorWarnings
          sources := (s.normalize L).sources } := rfl
    _ = s := by rw [hidentifiers, hsoftware, hwarnings, hsources]

theorem normalize_sources_idem : ((s.normalize L).normalize L).sources = (s.normalize L).sources := by
  by_cases hv : s.schemaVersion = inventorySchemaVersion
  · have hsources : (s.normalize L).sources
        = Stamped.inOrder (fun source => source.source.ctorIdx) s.sources := if_pos hv
    have htwice : ((s.normalize L).normalize L).sources
        = Stamped.inOrder (fun source => source.source.ctorIdx) (s.normalize L).sources := if_pos hv
    rw [htwice, hsources]
    exact Stamped.inOrder_of_pairwise (Stamped.pairwise_inOrder _ _)
  · exact if_neg hv

theorem normalize_normalize : (s.normalize L).normalize L = s.normalize L := by
  have hsoftware : ((s.normalize L).normalize L).software = (s.normalize L).software := by
    rw [normalize_software, prepared_normalize]
    exact Survivors.survivors_of_pairwise s.pairwise_normalize
  have hwarnings : ((s.normalize L).normalize L).collectorWarnings
      = (s.normalize L).collectorWarnings := by
    rw [normalize_collectorWarnings, prepared_normalize, normalize_schemaVersion,
      Survivors.arrange_of_pairwise s.pairwise_normalize,
      Survivors.dropNotices_of_pairwise s.pairwise_normalize, List.append_nil]
  exact normalize_of L _ (normalIdentifiers_idem s.identifiers) hsoftware hwarnings
    (s.normalize_sources_idem L)

/-- **Normalizing twice is normalizing once**, and so it is for a normalized
snapshot that was written and read back. -/
theorem normalize_idempotent :
    (s.normalize L).normalize L = s.normalize L ∧
    (L.RoundTrips (s.normalize L) →
      ∃ t, L.fromSlice (s.normalize L).toCanonicalJson = .ok t ∧ t.normalize L = s.normalize L ∧
        (t.normalize L).software.map (fun e => e.installationIdentity)
          = (s.normalize L).software.map fun e => e.installationIdentity) := by
  refine ⟨s.normalize_normalize L, fun hread => ⟨s.normalize L, hread, s.normalize_normalize L, ?_⟩⟩
  rw [s.normalize_normalize L]

end InventorySnapshot

namespace Sample

/-- A package of the system, in a version. -/
def package (name version : String) : SoftwareEntry where
  name := name
  version := some version
  publisher := none
  architecture := some "amd64"
  source := .dpkg
  installLocation := none
  productIdentity := none
  installationIdentity := none
  packageId := some name
  scope := none
  installInstanceId := none

def collection : Collection where
  snapshotId := "018f0000000000000000000000000000"
  agentId := "agent_0123456789abcdef0123456789abcdef"
  collectedAt := "2026-10-06T10:00:00Z"
  hostname := "workstation-17"
  osFamily := some "linux"
  osName := some "Ubuntu"
  osVersion := some "24.04"
  osArch := some "x86_64"
  agentVersion := "0.4.0"
  labels := []
  identifiers := []
  collectorWarnings := []

end Sample

end Lariska
