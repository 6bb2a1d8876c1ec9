import Lariska.Collectors
import Lariska.KeptEntries
import Lariska.LegacyView
import Lariska.JsonSize

/-!
# What is collected is valid

The endpoint checks every snapshot before it is spooled and again when it is
read back. What is built of the results of the collectors always passes: the
texts may be anything, since normalization computes the identities, erases the
places and leaves out entries without a name.
-/

namespace Lariska

/-- `platform_identifiers`, of the machine id where there is one. -/
def platformIdentifiers (L : Libraries) (uuid : Option String) : List EndpointIdentifier :=
  (uuid.map fun raw => ⟨.biosUuidHash,
    L.sha256 (Json.bytes (L.toLowercase (String.ofList (trim raw))))⟩).toList

/-! ## Digests -/

theorem isHexDigit_of_lower {b : UInt8} (h : isLowerHexDigit b = true) : isHexDigit b = true := by
  unfold isHexDigit
  rw [h, Bool.true_or]

theorem validIdentity_hash (L : Libraries) (bytes : Bytes) :
    validIdentity (some (L.sha256 bytes)) = true := by
  obtain ⟨hsize, hhex⟩ := Bool.and_eq_true_iff.mp (L.sha256_hex bytes)
  rw [List.all_eq_true] at hhex
  unfold validIdentity
  rw [Option.any_some, hsize, Bool.true_and, List.all_eq_true]
  exact fun b hb => isHexDigit_of_lower (hhex b hb)

/-- A digest has no blanks. -/
theorem trim_sha256Hex {digest : String} (h : sha256Hex digest = true) :
    trim digest = digest.toList := by
  have hblank : ∀ c ∈ digest.toList, isWhitespace c = false :=
    forall_mem_of_sha256Hex (by decide +kernel) h
  have htrim := trim_ofList hblank
  rwa [String.ofList_toList] at htrim

/-- The length of a text in bytes is that of its UTF-8. -/
theorem utf8Length_toList (s : String) : utf8Length s.toList = s.utf8ByteSize := by
  rw [← Json.length_bytes, Json.bytes_eq_flatMap, List.length_flatMap]
  unfold utf8Length
  congr 1
  exact List.map_congr_left fun c _ => (String.length_utf8EncodeChar c).symm

/-! ## Checks that pass -/

theorem demand_of {c : Prop} [Decidable c] (h : c) (message : String) :
    demand c message = .ok () := if_pos h

theorem validateRequired_of {value : String} (h : trim value ≠ []) (name : String) :
    validateRequired name value = .ok () := demand_of h _

theorem validateSources_ok {seen : List SoftwareSource} {sources : List CollectionSource}
    (hnodup : (sources.map CollectionSource.source).Nodup)
    (hseen : ∀ s ∈ sources, s.source ∉ seen) (hsound : ∀ s ∈ sources, s.Sound) :
    validateSources seen sources = .ok () := by
  induction sources generalizing seen with
  | nil => rfl
  | cons s sources ih =>
    obtain ⟨hfresh, hnodup⟩ := List.nodup_cons.mp hnodup
    have hs := hsound s List.mem_cons_self
    unfold validateSources
    rw [demand_of (hseen s List.mem_cons_self), validateRequired_of hs.version,
      validateRequired_of hs.collectedAt, demand_of hs.code, demand_of hs.complete]
    refine ih hnodup (fun t ht => ?_) fun t ht => hsound t (List.mem_cons_of_mem _ ht)
    rw [List.mem_cons, not_or]
    refine ⟨fun heq => hfresh ?_, hseen t (List.mem_cons_of_mem _ ht)⟩
    exact heq ▸ List.mem_map_of_mem ht

/-- What is checked of an entry in schema version 2. -/
structure SoftwareEntry.Sound (L : Libraries) (sources : List SoftwareSource) (e : SoftwareEntry) :
    Prop where
  source : e.source ∈ sources
  identities : validIdentity e.installationIdentity = true ∧ validIdentity e.installInstanceId = true
  product : e.productIdentity = some (e.comparisonKey L) ∧ e.scope ≠ none ∧ e.installLocation = none

theorem validateSoftware_ok {L : Libraries} {sources : List SoftwareSource}
    {software : List SoftwareEntry} (h : ∀ e ∈ software, e.Sound L sources) :
    validateSoftware L sources software = .ok () := by
  induction software with
  | nil => rfl
  | cons e software ih =>
    have he := h e List.mem_cons_self
    unfold validateSoftware
    rw [demand_of he.source, demand_of he.identities, demand_of he.product]
    exact ih fun f hf => h f (List.mem_cons_of_mem _ hf)

namespace InventorySnapshot

/-- **A sound snapshot**, which is what `validate` checks. -/
structure Sound (L : Libraries) (s : InventorySnapshot) : Prop where
  version : s.schemaVersion = legacyInventorySchemaVersion ∨ s.schemaVersion = inventorySchemaVersion
  snapshotId : trim s.snapshotId ≠ []
  agentId : trim s.agentId ≠ []
  collectedAt : trim s.collectedAt ≠ []
  hostname : trim s.hostname ≠ []
  agentVersion : trim s.agentVersion ≠ []
  names : ∀ e ∈ s.software, trim e.name ≠ []
  sources : s.schemaVersion = inventorySchemaVersion →
    (s.sources.map CollectionSource.source).Nodup ∧ ∀ source ∈ s.sources, source.Sound
  entries : s.schemaVersion = inventorySchemaVersion →
    ∀ e ∈ s.software, e.Sound L (s.sources.map CollectionSource.source)
  identifiers : ∀ i ∈ s.identifiers, 8 ≤ utf8Length (trim i.valueHash)

theorem Sound.validate {L : Libraries} {s : InventorySnapshot} (h : s.Sound L) :
    s.validate L = .ok () := by
  unfold InventorySnapshot.validate
  rw [demand_of h.version, validateRequired_of h.snapshotId, validateRequired_of h.agentId,
    validateRequired_of h.collectedAt, validateRequired_of h.hostname,
    validateRequired_of h.agentVersion, demand_of h.names, demand_of h.identifiers]
  by_cases hv : s.schemaVersion = inventorySchemaVersion
  · obtain ⟨hnodup, hsound⟩ := h.sources hv
    rw [if_pos hv, validateSources_ok hnodup (by simp) hsound, validateSoftware_ok (h.entries hv)]
    rfl
  · rw [if_neg hv]
    rfl

/-! ## What is built -/

variable {L : Libraries} {schemaVersion : Nat} {agentId : String}

theorem mem_normalIdentifiers {identifiers : List EndpointIdentifier} {i : EndpointIdentifier}
    (h : i ∈ normalIdentifiers identifiers) : i ∈ identifiers := by
  rw [normalIdentifiers_eq] at h
  have hkept := Stamped.mem_inOrder.mp ((List.destutter_sublist _ _).subset h)
  exact (List.mem_filter.mp hkept).1

/-- The identifier of the platform is long enough. -/
theorem le_of_mem_platformIdentifiers {uuid : Option String} {i : EndpointIdentifier}
    (h : i ∈ platformIdentifiers L uuid) : 8 ≤ utf8Length (trim i.valueHash) := by
  unfold platformIdentifiers at h
  rw [Option.mem_toList] at h
  obtain ⟨raw, -, rfl⟩ := Option.map_eq_some_iff.mp h
  have hhex := L.sha256_hex (Json.bytes (L.toLowercase (String.ofList (trim raw))))
  have hsize := (Bool.and_eq_true_iff.mp hhex).1
  rw [beq_iff_eq] at hsize
  rw [trim_sha256Hex hhex, utf8Length_toList, hsize]
  decide

/-- What is prepared keeps its source. -/
theorem prepareEntry_source (raw : SoftwareEntry) :
    (prepareEntry L schemaVersion agentId raw).source = raw.source := by
  unfold prepareEntry
  split_ifs
  · unfold SoftwareEntry.identify
    split_ifs <;> simp [SoftwareEntry.ensureInstallationIdentity, SoftwareEntry.prepare,
      SoftwareEntry.scopeInstance, SoftwareEntry.normalize]
  · rfl

/-- An entry that was kept: it has a name, and comes from a collected one. -/
theorem exists_raw {s : InventorySnapshot} {e : SoftwareEntry} (he : e ∈ (s.normalize L).software) :
    trim e.name ≠ [] ∧ ∃ raw ∈ s.software, prepareEntry L s.schemaVersion s.agentId raw = e := by
  rw [normalize_software] at he
  have hmem := (Survivors.isBest_of_mem he).1
  rw [prepared_eq] at hmem
  obtain ⟨raw, hraw, rfl⟩ := List.mem_map.mp hmem
  obtain ⟨hraw, hname⟩ := List.mem_filter.mp hraw
  refine ⟨?_, raw, hraw, rfl⟩
  rw [Ne, ← normalizeRequiredString_eq_empty, prepareEntry_name, normalizeRequiredString_idem,
    normalizeRequiredString_eq_empty]
  simpa using hname

/-- What was collected of a source and kept passes the checks of an entry. -/
theorem sound_prepareEntry {sources : List SoftwareSource} {raw : SoftwareEntry}
    (hsource : raw.source ∈ sources) (hnew : raw.installationIdentity = none) :
    (prepareEntry L inventorySchemaVersion agentId raw).Sound L sources := by
  have hid : (prepareEntry L inventorySchemaVersion agentId raw).Identified L := by
    unfold prepareEntry
    rw [if_pos rfl]
    exact SoftwareEntry.identified_identify L agentId _
  have hinstance : ∃ bytes, (prepareEntry L inventorySchemaVersion agentId raw).installInstanceId
      = some (L.sha256 bytes) := by
    have h := SoftwareEntry.installation_identify (L := L) (e := raw.normalize) hnew agentId
    unfold prepareEntry
    rw [if_pos rfl]
    exact ⟨_, congrArg (fun i => i.2.2.2) h⟩
  obtain ⟨bytes, hinstance⟩ := hinstance
  obtain ⟨scope, hscope⟩ := hid.scope
  refine ⟨?_, ⟨?_, ?_⟩, hid.productIdentity, ?_, hid.installLocation⟩
  · rw [prepareEntry_source]
    exact hsource
  · rw [hid.installationIdentity]
    exact validIdentity_hash L _
  · rw [hinstance]
    exact validIdentity_hash L _
  · rw [hscope]
    simp

/-- **Every snapshot that is built of collected results is valid**, in schema
version 2 and made into version 1. The results are one for each source, with
entries of this source that have no identity yet, and all texts of the entries
and warnings arbitrary. -/
theorem collected_valid (L : Libraries) (results : List (SoftwareSource × CollectorResult))
    (hof : ∀ p ∈ results, OfSource p.1 p.2) (honce : (results.map Prod.fst).Nodup)
    (c : Collection) (uuid : Option String) (hidentifiers : c.identifiers = platformIdentifiers L uuid)
    (hsnapshot : trim c.snapshotId ≠ []) (hagent : trim c.agentId ≠ [])
    (htime : trim c.collectedAt ≠ []) (hhost : trim c.hostname ≠ [])
    (hversion : trim c.agentVersion ≠ []) :
    let collected := CollectorResult.merged (results.map Prod.snd)
    (newV2 L c collected.entries collected.sources).validate L = .ok () ∧
      ((newV2 L c collected.entries collected.sources).intoV1 L).validate L = .ok () := by
  intro collected
  have hreport := fun p hp => (hof p hp).report
  have hstates : collected.sources.map CollectionSource.source = results.map Prod.fst := by
    rw [CollectorResult.merged_sources, List.flatMap_map, List.map_flatMap, List.map_eq_flatMap]
    refine List.flatMap_congr fun p hp => ?_
    obtain ⟨⟨state, hsources, hsource, -⟩, -⟩ := hreport p hp
    rw [hsources, List.map_singleton, hsource]
  have hsound : ∀ s ∈ collected.sources, s.Sound := by
    intro s hs
    rw [CollectorResult.merged_sources, List.flatMap_map] at hs
    obtain ⟨p, hp, hs⟩ := List.mem_flatMap.mp hs
    obtain ⟨⟨state, hsources, -, hstate⟩, -⟩ := hreport p hp
    rw [hsources, List.mem_singleton] at hs
    exact hs ▸ hstate
  have hentries : ∀ e ∈ collected.entries, e.source ∈ results.map Prod.fst ∧
      e.installationIdentity = none := by
    intro e he
    rw [CollectorResult.merged_entries, List.flatMap_map] at he
    obtain ⟨p, hp, he⟩ := List.mem_flatMap.mp he
    obtain ⟨hsource, hnew⟩ := (hreport p hp).2 e he
    exact ⟨hsource ▸ List.mem_map_of_mem hp, hnew⟩
  have hids : ∀ i ∈ (newV2 L c collected.entries collected.sources).identifiers,
      8 ≤ utf8Length (trim i.valueHash) := by
    intro i hi
    have hi : i ∈ c.identifiers := mem_normalIdentifiers hi
    exact le_of_mem_platformIdentifiers (hidentifiers ▸ hi)
  have hperm : (newV2 L c collected.entries collected.sources).sources.Perm collected.sources :=
    List.perm_insertionSort _ _
  have hkeys : ((newV2 L c collected.entries collected.sources).sources.map
      CollectionSource.source).Perm (results.map Prod.fst) :=
    (hperm.map _).trans (hstates ▸ List.Perm.refl _)
  constructor
  · refine Sound.validate ⟨.inr rfl, hsnapshot, hagent, htime, hhost, hversion,
      fun e he => (exists_raw he).1, fun _ => ⟨hkeys.nodup_iff.mpr honce, fun s hs =>
        hsound s (hperm.mem_iff.mp hs)⟩, fun _ e he => ?_, hids⟩
    obtain ⟨-, raw, hraw, rfl⟩ := exists_raw he
    obtain ⟨hsource, hnew⟩ := hentries raw hraw
    exact sound_prepareEntry (hkeys.mem_iff.mpr hsource) hnew
  · have hlegacy : ((newV2 L c collected.entries collected.sources).intoV1 L).schemaVersion
        ≠ inventorySchemaVersion := show legacyInventorySchemaVersion ≠ _ by decide
    exact Sound.validate ⟨.inl rfl, hsnapshot, hagent, htime, hhost, hversion,
      fun e he => (exists_raw he).1, fun h => absurd h hlegacy, fun h => absurd h hlegacy,
      fun i hi => hids i (mem_normalIdentifiers hi)⟩

end InventorySnapshot

namespace Sample

/-- A package manager that was read in part, a runtime that is not there and one
whose collector panicked. -/
def threeResults : List (SoftwareSource × CollectorResult) :=
  [(.dpkg, CollectorResult.withSource "2026-10-06T10:00:01Z"
      ⟨[package "curl" "1.9.0", package "curl" "1.10.0"], ["rpm: No such file"], false, []⟩ .dpkg),
    (.npm, .notApplicable "2026-10-06T10:00:02Z" .npm),
    (.java, .failed "2026-10-06T10:00:03Z" .java "collector_panicked")]

/-- The snapshot of these results is valid. -/
theorem three_results_valid :
    (InventorySnapshot.newV2 (libraries curlDigests []) collection
      (CollectorResult.merged (threeResults.map Prod.snd)).entries
      (CollectorResult.merged (threeResults.map Prod.snd)).sources).validate
        (libraries curlDigests []) = .ok () ∧
    ((InventorySnapshot.newV2 (libraries curlDigests []) collection
      (CollectorResult.merged (threeResults.map Prod.snd)).entries
      (CollectorResult.merged (threeResults.map Prod.snd)).sources).intoV1
        (libraries curlDigests [])).validate (libraries curlDigests []) = .ok () := by
  have hof : ∀ p ∈ threeResults, OfSource p.1 p.2 := by
    unfold threeResults
    rw [List.forall_mem_cons, List.forall_mem_cons, List.forall_mem_singleton]
    exact ⟨.withSource (by decide) rfl (by decide) (by decide), .notApplicable (by decide),
      .failed (by decide) (by decide)⟩
  exact InventorySnapshot.collected_valid (libraries curlDigests []) threeResults hof (by decide)
    collection none rfl (by decide) (by decide) (by decide) (by decide) (by decide)

end Sample

end Lariska
