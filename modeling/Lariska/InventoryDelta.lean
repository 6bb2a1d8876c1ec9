import Lariska.Normalization

/-!
# The difference of two inventories

The change from one snapshot to the next, as a list of entries added, removed
and modified. In schema version 2 nothing is said about a source that the
current snapshot does not have a complete observation of: what it shows is not
added, and what it lacks is not removed.

Such a list is a patch: applied to the versions of the previous snapshot it
gives those of the current one, wherever it has something to say.
-/

/-! ## Patches -/

namespace Patch

variable {α κ ν : Type} [DecidableEq κ] (key : α → κ) (effect : α → Option ν)

/-- A map from keys to values after changes, each of which sets or clears the
value of its key. -/
def apply (m : κ → Option ν) (changes : List α) : κ → Option ν :=
  changes.foldl (fun m change => Function.update m (key change) (effect change)) m

variable {key effect}

/-- **A patch reaches a map** if each change has the effect the map says, and
where nothing is changed it says what was there. -/
theorem apply_eq {m goal : κ → Option ν} {changes : List α}
    (heffect : ∀ change ∈ changes, effect change = goal (key change))
    (hrest : ∀ k, (∀ change ∈ changes, key change ≠ k) → m k = goal k) :
    apply key effect m changes = goal := by
  induction changes generalizing m with
  | nil => exact funext fun k => hrest k fun _ h => absurd h List.not_mem_nil
  | cons change changes ih =>
    refine ih (fun c hc => heffect c (List.mem_cons_of_mem _ hc)) fun k hk => ?_
    show Function.update m (key change) (effect change) k = goal k
    by_cases heq : k = key change
    · rw [heq, Function.update_self, heffect change List.mem_cons_self]
    · rw [Function.update_of_ne heq]
      refine hrest k fun c hc => ?_
      rcases List.mem_cons.mp hc with rfl | hc
      · exact Ne.symm heq
      · exact hk c hc

omit [DecidableEq κ] in
/-- The keys of changes drawn from a list, at most one from each item and for
its key, are among the keys of the list in their order. -/
theorem sublist_keys {β : Type} {f : β → Option α} {keyOf : β → κ} {items : List β}
    (h : ∀ item ∈ items, ∀ change, f item = some change → key change = keyOf item) :
    ((items.filterMap f).map key).Sublist (items.map keyOf) := by
  induction items with
  | nil => exact .slnil
  | cons item items ih =>
    have hrest := ih fun i hi => h i (List.mem_cons_of_mem _ hi)
    rw [List.filterMap_cons]
    cases hf : f item with
    | none => exact hrest.cons _
    | some change =>
      show (key change :: (items.filterMap f).map key).Sublist (keyOf item :: items.map keyOf)
      rw [h item List.mem_cons_self change hf]
      exact hrest.cons_cons _

end Patch

namespace Lariska

inductive DeltaAction where
  | added | removed | modified
deriving DecidableEq

structure SoftwareDeltaItem where
  action : DeltaAction
  entry : SoftwareEntry
  previousVersion : Option String
deriving DecidableEq

structure InventoryDelta where
  schemaVersion : Nat
  snapshotId : String
  baseSnapshotId : String
  agentId : String
  collectedAt : String
  softwareChanges : List SoftwareDeltaItem
  collectorWarnings : List String
deriving DecidableEq

namespace InventorySnapshot

/-- The entries by their keys, a `BTreeMap`. -/
def entryMap (L : Libraries) (schemaVersion : Nat) (software : List SoftwareEntry) :
    Std.TreeMap String SoftwareEntry :=
  .ofList (software.map fun entry => (entry.identityKey L schemaVersion, entry))

/-- Whether a source is completely observed in the snapshot. -/
def completes (s : InventorySnapshot) (source : SoftwareSource) : Bool :=
  s.sources.any fun x => x.source = source && x.status = .complete

/-- The loop over the current entries: what was added or modified. -/
def currentChange (current : InventorySnapshot) (prevMap : Std.TreeMap String SoftwareEntry)
    (item : String × SoftwareEntry) : Option SoftwareDeltaItem :=
  if current.schemaVersion = inventorySchemaVersion ∧ ¬ current.completes item.2.source then none
  else match prevMap[item.1]? with
    | some prev =>
      if item.2.version ≠ prev.version then some ⟨.modified, item.2, prev.version⟩ else none
    | none => some ⟨.added, item.2, none⟩

/-- The loop over the previous entries: what was removed. -/
def removedChange (current : InventorySnapshot) (currMap : Std.TreeMap String SoftwareEntry)
    (item : String × SoftwareEntry) : Option SoftwareDeltaItem :=
  if ¬ currMap.contains item.1 ∧ (current.schemaVersion = legacyInventorySchemaVersion
      ∨ current.completes item.2.source) then
    some ⟨.removed, item.2, item.2.version⟩
  else none

/-- The changes before they are sorted. -/
def changes (L : Libraries) (current previous : InventorySnapshot) : List SoftwareDeltaItem :=
  let prevMap := entryMap L current.schemaVersion previous.software
  let currMap := entryMap L current.schemaVersion current.software
  currMap.toList.filterMap (current.currentChange prevMap)
    ++ prevMap.toList.filterMap (current.removedChange currMap)

def diff (L : Libraries) (current previous : InventorySnapshot) : InventoryDelta where
  schemaVersion := current.schemaVersion
  snapshotId := current.snapshotId
  baseSnapshotId := previous.snapshotId
  agentId := current.agentId
  collectedAt := current.collectedAt
  softwareChanges := Stamped.inOrder (fun change => change.entry.comparisonKey L)
    (current.changes L previous)
  collectorWarnings := current.collectorWarnings

/-! ## The map of versions -/

/-- The entry with a key. -/
def find (L : Libraries) (s : InventorySnapshot) (key : String) : Option SoftwareEntry :=
  s.software.find? fun e => e.identityKey L s.schemaVersion = key

/-- The map from keys to versions. -/
def versions (L : Libraries) (s : InventorySnapshot) (key : String) : Option (Option String) :=
  (s.find L key).map fun e => e.version

/-- The source of a key: that of its current entry, else of its previous one. -/
def keySource (L : Libraries) (current previous : InventorySnapshot) (key : String) :
    Option SoftwareSource :=
  ((current.find L key).or (previous.find L key)).map fun e => e.source

/-- The key of a change. -/
def changeKey (L : Libraries) (schemaVersion : Nat) (change : SoftwareDeltaItem) : String :=
  change.entry.identityKey L schemaVersion

/-- What a change does to the version of its key. -/
def changeEffect (change : SoftwareDeltaItem) : Option (Option String) :=
  if change.action = .removed then none else some change.entry.version

/-- The versions of the previous snapshot after the changes of a delta. -/
def patched (L : Libraries) (previous : InventorySnapshot) (delta : InventoryDelta) :
    String → Option (Option String) :=
  Patch.apply (changeKey L delta.schemaVersion) changeEffect (previous.versions L)
    delta.softwareChanges

/-! ## What the maps hold -/

variable {L : Libraries} {schemaVersion : Nat} {software : List SoftwareEntry}
variable {current previous : InventorySnapshot} {k : String} {e : SoftwareEntry}

/-- A list of entries with keys that increase. -/
abbrev Keyed (L : Libraries) (schemaVersion : Nat) (software : List SoftwareEntry) : Prop :=
  software.Pairwise fun a b => entryKey L schemaVersion a < entryKey L schemaVersion b

theorem getElem?_entryMap (h : Keyed L schemaVersion software) :
    (entryMap L schemaVersion software)[k]? = some e
      ↔ e ∈ software ∧ e.identityKey L schemaVersion = k := by
  have hdistinct : (software.map fun e => (e.identityKey L schemaVersion, e)).Pairwise
      fun a b => ¬ compare a.1 b.1 = .eq :=
    List.pairwise_map.mpr (h.imp fun hlt heq => hlt.ne (compare_eq_iff_eq.mp heq))
  have hget : ∀ e ∈ software,
      (entryMap L schemaVersion software)[e.identityKey L schemaVersion]? = some e := fun e he =>
    Std.TreeMap.getElem?_ofList_of_mem (compare_eq_iff_eq.mpr rfl) hdistinct
      (List.mem_map_of_mem (f := fun e => (e.identityKey L schemaVersion, e)) he)
  constructor
  · intro hsome
    by_cases hkey : ∃ e' ∈ software, e'.identityKey L schemaVersion = k
    · obtain ⟨e', he', rfl⟩ := hkey
      rw [hget e' he'] at hsome
      exact Option.some.inj hsome ▸ ⟨he', rfl⟩
    · have hnone : (entryMap L schemaVersion software)[k]? = none := by
        refine Std.TreeMap.getElem?_ofList_of_contains_eq_false ?_
        simpa using hkey
      rw [hnone] at hsome
      exact absurd hsome (by simp)
  · rintro ⟨he, rfl⟩
    exact hget e he

theorem eq_of_keyed (h : Keyed L schemaVersion software) {a b : SoftwareEntry} (ha : a ∈ software)
    (hb : b ∈ software) (hk : entryKey L schemaVersion a = entryKey L schemaVersion b) : a = b := by
  by_contra hne
  have : Std.Symm fun a b : SoftwareEntry =>
      entryKey L schemaVersion a ≠ entryKey L schemaVersion b := ⟨fun _ _ => Ne.symm⟩
  have hkeys : software.Pairwise fun a b =>
      entryKey L schemaVersion a ≠ entryKey L schemaVersion b := h.imp fun hlt => hlt.ne
  exact hkeys.forall ha hb hne hk

theorem of_find {s : InventorySnapshot} (h : s.find L k = some e) :
    e ∈ s.software ∧ e.identityKey L s.schemaVersion = k := by
  unfold find at h
  exact ⟨List.mem_of_find?_eq_some h, by simpa using List.find?_some h⟩

theorem find_eq_some {s : InventorySnapshot} (h : Keyed L s.schemaVersion s.software) :
    s.find L k = some e ↔ e ∈ s.software ∧ e.identityKey L s.schemaVersion = k := by
  refine ⟨of_find, ?_⟩
  rintro ⟨he, rfl⟩
  cases hfind : s.find L (e.identityKey L s.schemaVersion) with
  | none => exact absurd (decide_eq_true rfl) (List.find?_eq_none.mp hfind e he)
  | some e' =>
    obtain ⟨he', hk⟩ := of_find hfind
    rw [eq_of_keyed h he' he hk]

/-- The map holds what is found by a key. -/
theorem getElem?_entryMap_eq {s : InventorySnapshot} (h : Keyed L s.schemaVersion s.software)
    (k : String) : (entryMap L s.schemaVersion s.software)[k]? = s.find L k := by
  ext e
  rw [getElem?_entryMap h, find_eq_some h]

theorem mem_entryMap {s : InventorySnapshot} (h : Keyed L s.schemaVersion s.software) :
    (k, e) ∈ (entryMap L s.schemaVersion s.software).toList ↔ s.find L k = some e := by
  rw [Std.TreeMap.mem_toList_iff_getElem?_eq_some, getElem?_entryMap_eq h]

/-! ## What is changed -/

theorem currentChange_eq_some {prevMap : Std.TreeMap String SoftwareEntry}
    {item : String × SoftwareEntry} {change : SoftwareDeltaItem} :
    current.currentChange prevMap item = some change ↔
      (current.schemaVersion = inventorySchemaVersion →
        current.completes item.2.source = true) ∧
      ((∃ p, prevMap[item.1]? = some p ∧ item.2.version ≠ p.version
          ∧ change = ⟨.modified, item.2, p.version⟩) ∨
        prevMap[item.1]? = none ∧ change = ⟨.added, item.2, none⟩) := by
  unfold currentChange
  by_cases hskip : current.schemaVersion = inventorySchemaVersion
      ∧ ¬ current.completes item.2.source = true
  · rw [if_pos hskip]
    exact iff_of_false (by simp) fun h => hskip.2 (h.1 hskip.1)
  · rw [if_neg hskip]
    have hcomplete : current.schemaVersion = inventorySchemaVersion →
        current.completes item.2.source = true := fun hv => not_not.mp fun h => hskip ⟨hv, h⟩
    cases hprev : prevMap[item.1]? with
    | none =>
      constructor
      · intro h
        exact ⟨hcomplete, .inr ⟨rfl, (Option.some.inj h).symm⟩⟩
      · rintro ⟨-, ⟨p, hp, -⟩ | ⟨-, rfl⟩⟩
        · exact nomatch hp
        · rfl
    | some p =>
      constructor
      · intro h
        simp only at h
        split_ifs at h with hver
        exact ⟨hcomplete, .inl ⟨p, rfl, hver, (Option.some.inj h).symm⟩⟩
      · rintro ⟨-, ⟨q, hq, hver, rfl⟩ | ⟨hq, -⟩⟩
        · obtain rfl := Option.some.inj hq
          exact if_pos hver
        · exact nomatch hq

theorem removedChange_eq_some {currMap : Std.TreeMap String SoftwareEntry}
    {item : String × SoftwareEntry} {change : SoftwareDeltaItem} :
    current.removedChange currMap item = some change ↔
      currMap[item.1]? = none ∧ (current.schemaVersion = legacyInventorySchemaVersion
        ∨ current.completes item.2.source = true)
      ∧ change = ⟨.removed, item.2, item.2.version⟩ := by
  unfold removedChange
  have hnone : ¬ currMap.contains item.1 = true ↔ currMap[item.1]? = none := by
    rw [Bool.not_eq_true, Std.TreeMap.contains_eq_isSome_getElem?, Option.isSome_eq_false_iff,
      Option.isNone_iff_eq_none]
  split_ifs with h
  · constructor
    · intro heq
      exact ⟨hnone.mp h.1, h.2, (Option.some.inj heq).symm⟩
    · rintro ⟨-, -, rfl⟩
      rfl
  · exact iff_of_false id fun h' => h ⟨hnone.mpr h'.1, h'.2.1⟩

/-- **What a delta says**: of a key the current snapshot has, and of one that
only the previous snapshot has. -/
theorem mem_changes (hv : current.schemaVersion = previous.schemaVersion)
    (hc : Keyed L current.schemaVersion current.software)
    (hp : Keyed L previous.schemaVersion previous.software) {change : SoftwareDeltaItem} :
    change ∈ current.changes L previous ↔
      (∃ k e, current.find L k = some e ∧
        (current.schemaVersion = inventorySchemaVersion → current.completes e.source = true) ∧
        ((∃ p, previous.find L k = some p ∧ e.version ≠ p.version
            ∧ change = ⟨.modified, e, p.version⟩) ∨
          previous.find L k = none ∧ change = ⟨.added, e, none⟩)) ∨
      ∃ k p, previous.find L k = some p ∧ current.find L k = none ∧
        (current.schemaVersion = legacyInventorySchemaVersion
          ∨ current.completes p.source = true) ∧
        change = ⟨.removed, p, p.version⟩ := by
  unfold changes
  rw [List.mem_append, List.mem_filterMap, List.mem_filterMap, Prod.exists, Prod.exists, hv]
  simp only [currentChange_eq_some, removedChange_eq_some, getElem?_entryMap_eq hp,
    mem_entryMap hp]
  rw [← hv]
  simp only [getElem?_entryMap_eq hc, mem_entryMap hc]

/-- Where the current snapshot has the say. -/
def Authoritative (L : Libraries) (current previous : InventorySnapshot) (k : String) : Prop :=
  current.schemaVersion = legacyInventorySchemaVersion
    ∨ (current.keySource L previous k).any current.completes = true

instance : Decidable (Authoritative L current previous k) := inferInstanceAs (Decidable (_ ∨ _))

theorem keySource_of_current (h : current.find L k = some e) :
    current.keySource L previous k = some e.source := by
  unfold keySource
  rw [h]
  rfl

theorem keySource_of_previous (hc : current.find L k = none) (hp : previous.find L k = some e) :
    current.keySource L previous k = some e.source := by
  unfold keySource
  rw [hc, hp]
  rfl

section

variable (hv : current.schemaVersion = previous.schemaVersion)
  (hc : Keyed L current.schemaVersion current.software)
  (hp : Keyed L previous.schemaVersion previous.software)

include hv hc hp

/-- A change is about a key of which the current snapshot has the say, and
makes of it what the current snapshot has. -/
theorem changeEffect_eq (hschema : current.schemaVersion = legacyInventorySchemaVersion
      ∨ current.schemaVersion = inventorySchemaVersion)
    {change : SoftwareDeltaItem} (h : change ∈ current.changes L previous) :
    Authoritative L current previous (changeKey L current.schemaVersion change) ∧
      changeEffect change = current.versions L (changeKey L current.schemaVersion change) ∧
      change.previousVersion
        = (previous.versions L (changeKey L current.schemaVersion change)).join ∧
      (current.schemaVersion = inventorySchemaVersion →
        current.completes change.entry.source = true) := by
  rcases (mem_changes hv hc hp).mp h with ⟨k, e, he, hcomplete, hchange⟩ | ⟨k, p, hpk, hck, hsay, rfl⟩
  · have hkey : e.identityKey L current.schemaVersion = k := (of_find he).2
    have hauth : Authoritative L current previous k := hschema.imp id fun h => by
      rw [keySource_of_current he]
      exact hcomplete h
    have hversions : current.versions L k = some e.version := congrArg _ he
    rcases hchange with ⟨p, hpk, -, rfl⟩ | ⟨hpk, rfl⟩
    · have hprev : previous.versions L k = some p.version := congrArg _ hpk
      rw [show changeKey L current.schemaVersion ⟨.modified, e, p.version⟩ = k from hkey, hversions,
        hprev]
      exact ⟨hauth, rfl, rfl, hcomplete⟩
    · have hprev : previous.versions L k = none := congrArg _ hpk
      rw [show changeKey L current.schemaVersion ⟨.added, e, none⟩ = k from hkey, hversions, hprev]
      exact ⟨hauth, rfl, rfl, hcomplete⟩
  · have hkey : p.identityKey L current.schemaVersion = k := hv ▸ (of_find hpk).2
    have hversions : current.versions L k = none := congrArg _ hck
    have hprev : previous.versions L k = some p.version := congrArg _ hpk
    rw [show changeKey L current.schemaVersion ⟨.removed, p, p.version⟩ = k from hkey, hversions,
      hprev]
    refine ⟨hsay.imp id fun h => ?_, rfl, rfl, fun h => ?_⟩
    · rw [keySource_of_previous hck hpk]
      exact h
    · exact hsay.resolve_left fun hlegacy => absurd (hlegacy.symm.trans h) (by decide)

/-- Where nothing is changed, the previous version is the current one or the
current snapshot has no say. -/
theorem versions_of_unchanged {k : String}
    (h : ∀ change ∈ current.changes L previous, changeKey L current.schemaVersion change ≠ k)
    (hauth : Authoritative L current previous k) : previous.versions L k = current.versions L k := by
  cases hck : current.find L k with
  | some e =>
    have hkey : e.identityKey L current.schemaVersion = k := (of_find hck).2
    have hcomplete : current.schemaVersion = inventorySchemaVersion →
        current.completes e.source = true := fun h => by
      rw [Authoritative, keySource_of_current hck] at hauth
      exact hauth.resolve_left fun hlegacy => absurd (hlegacy.symm.trans h) (by decide)
    cases hpk : previous.find L k with
    | none =>
      refine absurd hkey (h ⟨.added, e, none⟩ ((mem_changes hv hc hp).mpr (.inl ?_)))
      exact ⟨k, e, hck, hcomplete, .inr ⟨hpk, rfl⟩⟩
    | some p =>
      by_cases hver : e.version = p.version
      · unfold versions
        rw [hck, hpk, Option.map_some, Option.map_some, hver]
      · refine absurd hkey (h ⟨.modified, e, p.version⟩ ((mem_changes hv hc hp).mpr (.inl ?_)))
        exact ⟨k, e, hck, hcomplete, .inl ⟨p, hpk, hver, rfl⟩⟩
  | none =>
    cases hpk : previous.find L k with
    | none =>
      unfold versions
      rw [hck, hpk]
    | some p =>
      have hkey : p.identityKey L current.schemaVersion = k := hv ▸ (of_find hpk).2
      refine absurd hkey (h ⟨.removed, p, p.version⟩ ((mem_changes hv hc hp).mpr (.inr ?_)))
      rw [Authoritative, keySource_of_previous hck hpk] at hauth
      exact ⟨k, p, hpk, hck, hauth, rfl⟩

/-- No key is changed twice. -/
theorem nodup_changes : ((current.changes L previous).map (changeKey L current.schemaVersion)).Nodup := by
  have hdistinct : ∀ t : Std.TreeMap String SoftwareEntry, (t.toList.map Prod.fst).Nodup := fun t =>
    List.pairwise_map.mpr (Std.TreeMap.distinct_keys_toList.imp fun h heq =>
      h (compare_eq_iff_eq.mpr heq))
  have hcurrent : ∀ item ∈ (entryMap L current.schemaVersion current.software).toList, ∀ change,
      current.currentChange (entryMap L current.schemaVersion previous.software) item = some change →
        changeKey L current.schemaVersion change = item.1
          ∧ current.find L item.1 ≠ none := fun item hitem change hchange => by
    have hfind := (mem_entryMap hc).mp hitem
    refine ⟨?_, hfind ▸ Option.some_ne_none _⟩
    rcases (currentChange_eq_some.mp hchange).2 with ⟨p, -, -, rfl⟩ | ⟨-, rfl⟩
    · exact (of_find hfind).2
    · exact (of_find hfind).2
  have hremoved : ∀ item ∈ (entryMap L current.schemaVersion previous.software).toList, ∀ change,
      current.removedChange (entryMap L current.schemaVersion current.software) item = some change →
        changeKey L current.schemaVersion change = item.1
          ∧ current.find L item.1 = none := fun item hitem change hchange => by
    rw [hv] at hitem
    have hfind := (mem_entryMap hp).mp hitem
    obtain ⟨hnone, -, rfl⟩ := removedChange_eq_some.mp hchange
    exact ⟨hv ▸ (of_find hfind).2, getElem?_entryMap_eq hc _ ▸ hnone⟩
  unfold changes
  rw [List.map_append, List.nodup_append]
  refine ⟨?_, ?_, ?_⟩
  · exact (hdistinct _).sublist (Patch.sublist_keys fun item hi c h => (hcurrent item hi c h).1)
  · exact (hdistinct _).sublist (Patch.sublist_keys fun item hi c h => (hremoved item hi c h).1)
  · intro x hx y hy hxy
    obtain ⟨change, hmem, rfl⟩ := List.mem_map.mp hx
    obtain ⟨change', hmem', rfl⟩ := List.mem_map.mp hy
    obtain ⟨item, hi, hchange⟩ := List.mem_filterMap.mp hmem
    obtain ⟨item', hi', hchange'⟩ := List.mem_filterMap.mp hmem'
    obtain ⟨hk, hsome⟩ := hcurrent item hi change hchange
    obtain ⟨hk', hnone⟩ := hremoved item' hi' change' hchange'
    exact hsome (hk ▸ hxy ▸ hk' ▸ hnone)

end

/-- **A delta is a correct patch** between two normalized snapshots of one
schema version. -/
theorem diff_correct (L : Libraries) (s t : InventorySnapshot)
    (hv : s.schemaVersion = t.schemaVersion)
    (hschema : s.schemaVersion = legacyInventorySchemaVersion
      ∨ s.schemaVersion = inventorySchemaVersion) :
    let current := s.normalize L
    let previous := t.normalize L
    let delta := current.diff L previous
    (current.schemaVersion = legacyInventorySchemaVersion →
      previous.patched L delta = current.versions L) ∧
    (current.schemaVersion = inventorySchemaVersion →
      previous.patched L delta = fun key =>
        if (current.keySource L previous key).any current.completes then current.versions L key
        else previous.versions L key) ∧
    (delta.softwareChanges.map (changeKey L current.schemaVersion)).Nodup ∧
    (∀ change ∈ delta.softwareChanges, change.previousVersion
      = (previous.versions L (changeKey L current.schemaVersion change)).join) ∧
    (current.schemaVersion = inventorySchemaVersion →
      ∀ change ∈ delta.softwareChanges, current.completes change.entry.source = true) := by
  intro current previous delta
  have hversion : current.schemaVersion = previous.schemaVersion := hv
  have hc : Keyed L current.schemaVersion current.software := s.pairwise_normalize
  have hp : Keyed L previous.schemaVersion previous.software := t.pairwise_normalize
  have hmem : ∀ change, change ∈ delta.softwareChanges ↔ change ∈ current.changes L previous :=
    fun change => Stamped.mem_inOrder
  have hchange := fun change (h : change ∈ current.changes L previous) =>
    changeEffect_eq hversion hc hp hschema h
  have hpatched : previous.patched L delta = fun key =>
      if Authoritative L current previous key then current.versions L key
      else previous.versions L key := by
    refine Patch.apply_eq (fun change h => ?_) fun key h => ?_
    · obtain ⟨hauth, heffect, -⟩ := hchange change ((hmem change).mp h)
      exact heffect.trans (if_pos hauth).symm
    · split_ifs with hauth
      · exact versions_of_unchanged hversion hc hp (fun c hc => h c ((hmem c).mpr hc)) hauth
      · rfl
  refine ⟨fun hlegacy => ?_, fun hinventory => ?_, ?_, fun change h => ?_, fun hinventory change h => ?_⟩
  · rw [hpatched]
    funext key
    exact if_pos (.inl hlegacy)
  · rw [hpatched]
    funext key
    have hiff : Authoritative L current previous key
        ↔ (current.keySource L previous key).any current.completes = true :=
      or_iff_right fun hlegacy => absurd (hlegacy.symm.trans hinventory) (by decide)
    exact if_congr hiff rfl rfl
  · have hperm : delta.softwareChanges.Perm (current.changes L previous) :=
      List.perm_insertionSort _ _
    exact (hperm.map _).nodup_iff.mpr (nodup_changes hversion hc hp)
  · exact (hchange change ((hmem change).mp h)).2.2.1
  · exact (hchange change ((hmem change).mp h)).2.2.2 hinventory

open Sample in
/-- One package modified, one added, one removed and one as it was. -/
theorem diff_correct_packages :
    let make := build legacyInventorySchemaVersion collection
    let previous := make [package "bash" "5.1", package "curl" "7.88", package "nginx" "1.22"] []
    let current := make [package "bash" "5.2", package "curl" "7.88", package "git" "2.40"] []
    let L := libraries [] []
    ((current.normalize L).diff L (previous.normalize L)).softwareChanges.map
        (fun change => (change.action, change.entry.name, change.previousVersion))
      = [(.modified, "bash", some "5.1"), (.added, "git", none),
        (.removed, "nginx", some "1.22")] ∧
    (previous.normalize L).patched L ((current.normalize L).diff L (previous.normalize L))
      = (current.normalize L).versions L := by
  intro make previous current L
  exact ⟨by decide +kernel, (diff_correct L current previous rfl (.inl rfl)).1 rfl⟩

end InventorySnapshot

end Lariska
