import Lariska.Normalization
import Lariska.JsonText

/-!
# The order of collection

The entries of a snapshot are sorted, but entries the sort does not tell apart
stay in the order they were collected in, and the first is the one that is
kept. What two entries of one key and of versions that compare equal differ in
then decides the snapshot and its digest. This module says exactly when the
order does not matter: when such ties are harmless.
-/

namespace Lariska

namespace InventorySnapshot

variable {L : Libraries} {schemaVersion : Nat} {c : Collection} {sources : List CollectionSource}
variable {software : List SoftwareEntry}

/-- **Harmless ties** among the entries of a collection: two of one key whose
versions compare equal are the same entry where none of the key is newer, and
else dropping one reads like dropping the other. -/
def TiesHarmless (L : Libraries) (schemaVersion : Nat) (c : Collection)
    (software : List SoftwareEntry) : Prop :=
  Survivors.TiesHarmless (entryKey L schemaVersion) (entryRank L)
    (SoftwareEntry.duplicateWarning L schemaVersion)
    (preparedSoftware L schemaVersion c.agentId software)

/-- No order of the entries gives another list of software. -/
def SameSoftware (L : Libraries) (schemaVersion : Nat) (c : Collection)
    (software : List SoftwareEntry) (sources : List CollectionSource) : Prop :=
  ∀ software', software'.Perm software →
    ((build schemaVersion c software' sources).normalize L).software
      = ((build schemaVersion c software sources).normalize L).software

theorem perm_preparedSoftware {software' : List SoftwareEntry} (hp : software'.Perm software)
    (agentId : String) :
    (preparedSoftware L schemaVersion agentId software').Perm
      (preparedSoftware L schemaVersion agentId software) := by
  rw [preparedSoftware_eq, preparedSoftware_eq]
  exact (hp.map _).filter _

/-- Two different prepared entries can be collected first, in either order. -/
theorem exists_perm {agentId : String} {a b : SoftwareEntry}
    (ha : a ∈ preparedSoftware L schemaVersion agentId software)
    (hb : b ∈ preparedSoftware L schemaVersion agentId software) (hne : a ≠ b) :
    ∃ first second rest, (first :: second :: rest).Perm software
      ∧ preparedSoftware L schemaVersion agentId (first :: second :: rest)
        = a :: b :: preparedSoftware L schemaVersion agentId rest
      ∧ preparedSoftware L schemaVersion agentId (second :: first :: rest)
        = b :: a :: preparedSoftware L schemaVersion agentId rest := by
  obtain ⟨⟨first, hfirst, rfl⟩, hna⟩ := mem_preparedSoftware.mp ha
  obtain ⟨⟨second, hsecond, rfl⟩, hnb⟩ := mem_preparedSoftware.mp hb
  have hne' : second ≠ first := fun h => hne (h ▸ rfl)
  have hmem : second ∈ software.erase first := (List.mem_erase_of_ne hne').mpr hsecond
  refine ⟨first, second, (software.erase first).erase second, ?_, ?_, ?_⟩
  · exact ((List.perm_cons_erase hmem).symm.cons first).trans (List.perm_cons_erase hfirst).symm
  · rw [preparedSoftware_eq, preparedSoftware_eq, List.map_cons, List.map_cons,
      List.filter_cons_of_pos (by simpa using hna), List.filter_cons_of_pos (by simpa using hnb)]
  · rw [preparedSoftware_eq, preparedSoftware_eq, List.map_cons, List.map_cons,
      List.filter_cons_of_pos (by simpa using hnb), List.filter_cons_of_pos (by simpa using hna)]

/-- Where the software stays the same, the best of a key is one entry. -/
theorem best_unique (h : SameSoftware L schemaVersion c software sources)
    {a b : SoftwareEntry} (ha : a ∈ preparedSoftware L schemaVersion c.agentId software)
    (hb : b ∈ preparedSoftware L schemaVersion c.agentId software)
    (hk : entryKey L schemaVersion a = entryKey L schemaVersion b)
    (hr : entryRank L a = entryRank L b)
    (hbest : Survivors.IsBest (entryKey L schemaVersion) (entryRank L)
      (preparedSoftware L schemaVersion c.agentId software) a) : a = b := by
  by_contra hne
  obtain ⟨first, second, rest, hp, hab, hba⟩ := exists_perm ha hb hne
  have hsame := (h _ hp).trans (h _ ((List.Perm.swap first second rest).trans hp)).symm
  rw [normalize_software, normalize_software] at hsame
  have hbestb : Survivors.IsBest (entryKey L schemaVersion) (entryRank L)
      (preparedSoftware L schemaVersion c.agentId software) b :=
    fun e he hek => hr ▸ hbest e he (hek.trans hk.symm)
  refine hne (Survivors.eq_of_survivors_eq ?_ ?_ hk (?_ : Survivors.survivors _ (entryRank L)
    (a :: b :: preparedSoftware L schemaVersion c.agentId rest) = Survivors.survivors _ _
    (b :: a :: preparedSoftware L schemaVersion c.agentId rest)))
  · exact hab ▸ hbest.perm (perm_preparedSoftware hp c.agentId)
  · exact hba ▸ hbestb.perm (perm_preparedSoftware
      ((List.Perm.swap first second rest).trans hp) c.agentId)
  · rw [← hab, ← hba]
    exact hsame

/-! ## Schema version 2

There a warning names the installation and nothing else, so what is dropped
reads the same. -/

theorem tiesHarmless_v2 (h : SameSoftware L inventorySchemaVersion c software sources) :
    TiesHarmless L inventorySchemaVersion c software := by
  intro a ha b hb hk hr
  refine ⟨best_unique h ha hb hk hr, fun m hm hkm hbest => ?_⟩
  by_cases hrm : entryRank L m = entryRank L a
  · -- Then `a` is a best one itself, and so is `b`.
    have hba : Survivors.IsBest (entryKey L inventorySchemaVersion) (entryRank L)
        (preparedSoftware L inventorySchemaVersion c.agentId software) a :=
      fun e he hke => hrm ▸ hbest e he (hke.trans hkm.symm)
    rw [best_unique h ha hb hk hr hba]
  · have hva : m.version ≠ a.version := fun hv => hrm (congrArg (versionRank L) hv)
    have hvb : m.version ≠ b.version := fun hv => hrm ((congrArg (versionRank L) hv).trans hr.symm)
    have hid : a.installationIdentity = b.installationIdentity := by
      rw [← entryKey_of_identified (identified_of_mem ha), hk,
        entryKey_of_identified (identified_of_mem hb)]
    unfold SoftwareEntry.duplicateWarning
    rw [if_pos rfl, if_pos rfl, if_pos hva, if_pos hvb, hid]

/-! ## Schema version 1

There the warnings show the order of what is dropped, and the digest shows the
warnings. -/

theorem tiesHarmless_v1 (h : SameSoftware L legacyInventorySchemaVersion c software sources)
    (hw : ∀ software', software'.Perm software →
      ((build legacyInventorySchemaVersion c software' sources).normalize L).collectorWarnings
        = ((build legacyInventorySchemaVersion c software sources).normalize L).collectorWarnings) :
    TiesHarmless L legacyInventorySchemaVersion c software := by
  intro a ha b hb hk hr
  refine ⟨best_unique h ha hb hk hr, fun m hm hkm hbest => ?_⟩
  by_cases hne : a = b
  · rw [hne]
  by_cases hrm : entryRank L m = entryRank L a
  · have hba : Survivors.IsBest (entryKey L legacyInventorySchemaVersion) (entryRank L)
        (preparedSoftware L legacyInventorySchemaVersion c.agentId software) a :=
      fun e he hke => hrm ▸ hbest e he (hke.trans hkm.symm)
    exact absurd (best_unique h ha hb hk hr hba) hne
  have hlt : entryRank L a < entryRank L m := lt_of_le_of_ne (hbest a ha hkm.symm) (Ne.symm hrm)
  obtain ⟨first, second, rest, hp, hab, hba⟩ := exists_perm ha hb hne
  have hp' := (List.Perm.swap first second rest).trans hp
  have hperm : (a :: b :: preparedSoftware L legacyInventorySchemaVersion c.agentId rest).Perm
      (preparedSoftware L legacyInventorySchemaVersion c.agentId software) :=
    hab ▸ perm_preparedSoftware hp c.agentId
  have hmrest : m ∈ preparedSoftware L legacyInventorySchemaVersion c.agentId rest := by
    rcases List.mem_cons.mp (hperm.mem_iff.mpr hm) with rfl | hmem
    · exact absurd hlt (lt_irrefl _)
    · rcases List.mem_cons.mp hmem with rfl | hmem
      · exact absurd hr hlt.ne
      · exact hmem
  obtain ⟨best, hbmem, hbk, hbbest, front, back, hdrop, hdrop'⟩ :=
    Survivors.notices_swap (SoftwareEntry.duplicateWarning L legacyInventorySchemaVersion)
      ⟨hk, hr⟩ hmrest hkm hlt
  -- The best one is the one the notices name.
  have hbm : best = m := by
    have hbp : best ∈ preparedSoftware L legacyInventorySchemaVersion c.agentId software :=
      hperm.mem_iff.mp (List.mem_cons_of_mem _ (List.mem_cons_of_mem _ hbmem))
    have hbest' := hbbest.perm hperm.symm
    exact best_unique h hbp hm (hbk.trans hkm.symm)
      (le_antisymm (hbest best hbp (hbk.trans hkm.symm)) (hbest' m hm (hkm.trans hbk.symm))) hbest'
  have hwarn := (hw _ hp).trans (hw _ hp').symm
  rw [normalize_collectorWarnings, normalize_collectorWarnings] at hwarn
  have hnotices := List.append_cancel_left hwarn
  unfold prepared build at hnotices
  simp only [hab, hba] at hnotices
  rw [hdrop, hdrop', hbm] at hnotices
  have hswap := List.append_cancel_left (List.append_cancel_right hnotices)
  unfold SoftwareEntry.duplicateWarning at hswap ⊢
  rw [if_neg (by decide), if_neg (by decide)] at hswap ⊢
  rw [(List.cons.inj hswap).1]

/-! ## The digest -/

/-- SHA-256 gives the two one digest only if it is taken of the same bytes. -/
def Distinguishes (L : Libraries) (s t : InventorySnapshot) : Prop :=
  s.contentDigest L = t.contentDigest L → s.digestPayload = t.digestPayload

/-- The digested bytes show the warnings. -/
theorem digestPayload_collectorWarnings {s : InventorySnapshot} {warnings : List String}
    (h : { s with collectorWarnings := warnings }.digestPayload = s.digestPayload) :
    warnings = s.collectorWarnings := by
  unfold digestPayload at h
  exact Json.array_str_inj
    (Json.object_field_inj [("agent_version", Json.str s.agentVersion)] h)

/-- Two orders of the entries differ in the software and the warnings only. -/
theorem normalize_build (software software' : List SoftwareEntry) :
    (build schemaVersion c software' sources).normalize L
      = { (build schemaVersion c software sources).normalize L with
          software := ((build schemaVersion c software' sources).normalize L).software
          collectorWarnings :=
            ((build schemaVersion c software' sources).normalize L).collectorWarnings } := rfl

/-- With harmless ties the whole snapshot is the same. -/
theorem TiesHarmless.normalize_eq (h : TiesHarmless L schemaVersion c software)
    {software' : List SoftwareEntry} (hp : software'.Perm software) :
    (build schemaVersion c software' sources).normalize L
      = (build schemaVersion c software sources).normalize L := by
  obtain ⟨hkept, hnotices⟩ := Survivors.perm_congr h (perm_preparedSoftware hp c.agentId)
  have hsoftware : ((build schemaVersion c software' sources).normalize L).software
      = ((build schemaVersion c software sources).normalize L).software := by
    rw [normalize_software, normalize_software]
    exact hkept
  have hwarnings : ((build schemaVersion c software' sources).normalize L).collectorWarnings
      = ((build schemaVersion c software sources).normalize L).collectorWarnings := by
    rw [normalize_collectorWarnings, normalize_collectorWarnings]
    exact congrArg (c.collectorWarnings ++ ·) hnotices
  rw [normalize_build software software', hsoftware, hwarnings]

/-- The software and the digest of a snapshot made of the entries are the same
in whatever order they are collected. -/
def OrderIndependent (L : Libraries) (make : List SoftwareEntry → InventorySnapshot)
    (software : List SoftwareEntry) : Prop :=
  ∀ software', software'.Perm software →
    (make software').software = (make software).software
      ∧ (make software').contentDigest L = (make software).contentDigest L

/-- **The order of collection does not matter exactly when ties are
harmless**, in both schema versions. -/
theorem order_independent_iff (L : Libraries) (c : Collection) (software : List SoftwareEntry)
    (sources : List CollectionSource)
    (hsha : ∀ software', software'.Perm software →
      Distinguishes L (new L c software') (new L c software)) :
    (OrderIndependent L (new L c) software
      ↔ TiesHarmless L legacyInventorySchemaVersion c software) ∧
    (OrderIndependent L (fun software => newV2 L c software sources) software
      ↔ TiesHarmless L inventorySchemaVersion c software) := by
  refine ⟨⟨fun h => ?_, fun h software' hp => ?_⟩, fun h => ?_, fun h software' hp => ?_⟩
  · have hsame : SameSoftware L legacyInventorySchemaVersion c software [] :=
      fun software' hp => (h software' hp).1
    refine tiesHarmless_v1 hsame fun software' hp => ?_
    obtain ⟨hsoftware, hdigest⟩ := h software' hp
    have hpayload := hsha software' hp hdigest
    unfold new at hsoftware hpayload
    rw [normalize_build software software', hsoftware] at hpayload
    exact digestPayload_collectorWarnings hpayload
  · unfold new
    rw [h.normalize_eq hp]
    exact ⟨rfl, rfl⟩
  · exact tiesHarmless_v2 fun software' hp => (h software' hp).1
  · have heq : newV2 L c software' sources = newV2 L c software sources := h.normalize_eq hp
    exact ⟨congrArg (fun s => s.software) heq, congrArg (contentDigest L) heq⟩

open Sample in
/-- Two packages of different names, in either order. -/
theorem order_independent_packages :
    OrderIndependent (libraries [] []) (new (libraries [] []) collection)
        [package "bash" "5.1", package "curl" "7.88"]
      ↔ TiesHarmless (libraries [] []) legacyInventorySchemaVersion collection
        [package "bash" "5.1", package "curl" "7.88"] := by
  refine (order_independent_iff (libraries [] []) collection
    [package "bash" "5.1", package "curl" "7.88"] [] fun software' hp _ => ?_).1
  have hmem : software' ∈ [[package "bash" "5.1", package "curl" "7.88"],
      [package "curl" "7.88", package "bash" "5.1"]] := List.mem_permutations'.mpr hp
  rcases List.mem_cons.mp hmem with rfl | hmem
  · rfl
  · rw [List.mem_singleton.mp hmem]
    decide +kernel

open Sample in
/-- Versions `1.08` and `1.8` of one package compare equal: the one collected
first is the one kept. -/
theorem order_of_collection_shows :
    ¬ ∀ (L : Libraries) (c : Collection) (software : List SoftwareEntry),
      OrderIndependent L (new L c) software := by
  intro h
  have hswap := (h (libraries [] []) collection [package "bash" "1.08", package "bash" "1.8"]
    [package "bash" "1.8", package "bash" "1.08"] (List.Perm.swap _ _ _)).1
  revert hswap
  decide +kernel

end InventorySnapshot

end Lariska
