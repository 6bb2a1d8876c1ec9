import Lariska.Inventory
import Lariska.JsonTree

/-!
# Reading a snapshot back

What `serde` derives for the types of a snapshot, on documents of the agent's
own: the fields of a struct in any order, each once and none it does not know;
a field that is absent or `null` is `None` where it is optional, and absent
sources are none. A snapshot is written with the optional identities of its
entries left out where there are none, and without sources if it has none;
what is written is read back as it was (`roundTrips_of_deserializes`).
-/

namespace Lariska

open Json (Value)

/-! ## Values -/

namespace Field

variable {α : Type}

/-- `Deserialize` of a string. -/
def string : Value → Option String
  | .str s => some s
  | _ => none

/-- ... of a `u16`. -/
def u16 : Value → Option Nat
  | .nat n => if n < 2 ^ 16 then some n else none
  | _ => none

/-- ... of an enumeration, by the name of its variant. -/
def variant (ofStr : String → Option α) (v : Value) : Option α := (string v).bind ofStr

/-- ... of a `Vec`. -/
def vec (read : Value → Option α) : Value → Option (List α)
  | .array items => items.mapM read
  | _ => none

/-- ... of a map from strings to strings, its keys in order. -/
def map : Value → Option (List (String × String))
  | .object members =>
    if (members.map Prod.fst).Pairwise (· < ·) then
      members.mapM fun m => (string m.2).map fun s => (m.1, s)
    else none
  | _ => none

/-- The members of a struct that has these fields. -/
def struct (names : List String) : Value → Option (List (String × Value))
  | .object members =>
    if (members.map Prod.fst).Nodup ∧ ∀ name ∈ members.map Prod.fst, name ∈ names then some members
    else none
  | _ => none

/-- A field that must be there. -/
def required (members : List (String × Value)) (name : String) (read : Value → Option α) :
    Option α := (members.lookup name).bind read

/-- ... of an `Option`. -/
def option (read : Value → Option α) : Value → Option (Option α)
  | .null => some none
  | v => (read v).map some

/-- An `Option`, which may be absent, with or without a default. -/
def optional (members : List (String × Value)) (name : String) (read : Value → Option α) :
    Option (Option α) := (members.lookup name).elim (some none) (option read)

/-- A `Vec` with a default. -/
def defaulted (members : List (String × Value)) (name : String)
    (read : Value → Option (List α)) : Option (List α) :=
  (members.lookup name).elim (some []) read

end Field

/-! ## The types of a snapshot -/

def IdentifierType.ofStr : String → Option IdentifierType
  | "mac_hash" => some .macHash
  | "serial_hash" => some .serialHash
  | "bios_uuid_hash" => some .biosUuidHash
  | "tpm_ek_hash" => some .tpmEkHash
  | _ => none

def SoftwareSource.ofStr : String → Option SoftwareSource
  | "apt" => some .apt
  | "dpkg" => some .dpkg
  | "rpm" => some .rpm
  | "winreg" => some .winreg
  | "msi" => some .msi
  | "brew" => some .brew
  | "pip" => some .pip
  | "npm" => some .npm
  | "java" => some .java
  | "kb" => some .kb
  | "pacman" => some .pacman
  | "mac_bundle" => some .macBundle
  | "other" => some .other
  | _ => none

def InstallationScope.ofStr : String → Option InstallationScope
  | "system" => some .system
  | "user" => some .user
  | "runtime" => some .runtime
  | "container" => some .container
  | _ => none

def CollectionStatus.ofStr : String → Option CollectionStatus
  | "complete" => some .complete
  | "partial" => some .partialResult
  | "failed" => some .failed
  | "not_applicable" => some .notApplicable
  | _ => none

def EndpointIdentifier.fieldNames : List String := ["identifier_type", "value_hash"]

def EndpointIdentifier.ofValue (v : Value) : Option EndpointIdentifier := do
  let m ← Field.struct fieldNames v
  let identifierType ← Field.required m "identifier_type" (Field.variant IdentifierType.ofStr)
  let valueHash ← Field.required m "value_hash" Field.string
  pure ⟨identifierType, valueHash⟩

def SoftwareEntry.fieldNames : List String :=
  ["name", "version", "publisher", "architecture", "source", "install_location",
    "product_identity", "installation_identity", "package_id", "scope", "install_instance_id"]

def SoftwareEntry.ofValue (v : Value) : Option SoftwareEntry := do
  let m ← Field.struct fieldNames v
  let name ← Field.required m "name" Field.string
  let version ← Field.optional m "version" Field.string
  let publisher ← Field.optional m "publisher" Field.string
  let architecture ← Field.optional m "architecture" Field.string
  let source ← Field.required m "source" (Field.variant SoftwareSource.ofStr)
  let installLocation ← Field.optional m "install_location" Field.string
  let productIdentity ← Field.optional m "product_identity" Field.string
  let installationIdentity ← Field.optional m "installation_identity" Field.string
  let packageId ← Field.optional m "package_id" Field.string
  let scope ← Field.optional m "scope" (Field.variant InstallationScope.ofStr)
  let installInstanceId ← Field.optional m "install_instance_id" Field.string
  pure ⟨name, version, publisher, architecture, source, installLocation, productIdentity,
    installationIdentity, packageId, scope, installInstanceId⟩

def CollectionSource.fieldNames : List String :=
  ["source", "status", "collected_at", "last_complete_at", "collector_version", "diagnostic_code"]

def CollectionSource.ofValue (v : Value) : Option CollectionSource := do
  let m ← Field.struct fieldNames v
  let source ← Field.required m "source" (Field.variant SoftwareSource.ofStr)
  let status ← Field.required m "status" (Field.variant CollectionStatus.ofStr)
  let collectedAt ← Field.required m "collected_at" Field.string
  let lastCompleteAt ← Field.optional m "last_complete_at" Field.string
  let collectorVersion ← Field.required m "collector_version" Field.string
  let diagnosticCode ← Field.optional m "diagnostic_code" Field.string
  pure ⟨source, status, collectedAt, lastCompleteAt, collectorVersion, diagnosticCode⟩

def InventorySnapshot.fieldNames : List String :=
  ["schema_version", "snapshot_id", "agent_id", "collected_at", "hostname", "os_family", "os_name",
    "os_version", "os_arch", "agent_version", "labels", "identifiers", "software",
    "collector_warnings", "sources"]

def InventorySnapshot.ofValue (v : Value) : Option InventorySnapshot := do
  let m ← Field.struct fieldNames v
  let schemaVersion ← Field.required m "schema_version" Field.u16
  let snapshotId ← Field.required m "snapshot_id" Field.string
  let agentId ← Field.required m "agent_id" Field.string
  let collectedAt ← Field.required m "collected_at" Field.string
  let hostname ← Field.required m "hostname" Field.string
  let osFamily ← Field.optional m "os_family" Field.string
  let osName ← Field.optional m "os_name" Field.string
  let osVersion ← Field.optional m "os_version" Field.string
  let osArch ← Field.optional m "os_arch" Field.string
  let agentVersion ← Field.required m "agent_version" Field.string
  let labels ← Field.required m "labels" Field.map
  let identifiers ← Field.required m "identifiers" (Field.vec EndpointIdentifier.ofValue)
  let software ← Field.required m "software" (Field.vec SoftwareEntry.ofValue)
  let collectorWarnings ← Field.required m "collector_warnings" (Field.vec Field.string)
  let sources ← Field.defaulted m "sources" (Field.vec CollectionSource.ofValue)
  pure ⟨schemaVersion, snapshotId, agentId, collectedAt, hostname, osFamily, osName, osVersion,
    osArch, agentVersion, labels, identifiers, software, collectorWarnings, sources⟩

/-- **`from_slice` as documented**: a text that is a document of the fields of a
snapshot is read as this snapshot. -/
def Libraries.Deserializes (L : Libraries) : Prop :=
  ∀ text value snapshot, Json.readDocument text = some value →
    InventorySnapshot.ofValue value = some snapshot → L.fromSlice text = .ok snapshot

/-! ## What is written, as values -/

/-- An optional field that is written in any case. -/
def optionValue (o : Option String) : Value := o.elim .null .str

/-- ... and one that is left out when it is absent. -/
def optionalMember (name : String) (o : Option String) : List (String × Value) :=
  (o.map fun v => (name, .str v)).toList

def EndpointIdentifier.members (i : EndpointIdentifier) : List (String × Value) :=
  [("identifier_type", .str i.identifierType.asStr), ("value_hash", .str i.valueHash)]

def SoftwareEntry.members (e : SoftwareEntry) : List (String × Value) :=
  [("name", .str e.name), ("version", optionValue e.version),
    ("publisher", optionValue e.publisher), ("architecture", optionValue e.architecture),
    ("source", .str e.source.asStr), ("install_location", optionValue e.installLocation)]
    ++ optionalMember "product_identity" e.productIdentity
    ++ optionalMember "installation_identity" e.installationIdentity
    ++ optionalMember "package_id" e.packageId
    ++ optionalMember "scope" (e.scope.map InstallationScope.asStr)
    ++ optionalMember "install_instance_id" e.installInstanceId

def CollectionSource.members (s : CollectionSource) : List (String × Value) :=
  [("source", .str s.source.asStr), ("status", .str s.status.asStr),
    ("collected_at", .str s.collectedAt), ("last_complete_at", optionValue s.lastCompleteAt),
    ("collector_version", .str s.collectorVersion),
    ("diagnostic_code", optionValue s.diagnosticCode)]

/-- What is written of every snapshot. -/
def InventorySnapshot.fixedMembers (s : InventorySnapshot) : List (String × Value) :=
  [("schema_version", .nat s.schemaVersion), ("snapshot_id", .str s.snapshotId),
    ("agent_id", .str s.agentId), ("collected_at", .str s.collectedAt),
    ("hostname", .str s.hostname), ("os_family", optionValue s.osFamily),
    ("os_name", optionValue s.osName), ("os_version", optionValue s.osVersion),
    ("os_arch", optionValue s.osArch), ("agent_version", .str s.agentVersion),
    ("labels", .object (s.labels.map fun l => (l.1, .str l.2))),
    ("identifiers", .array (s.identifiers.map fun i => .object i.members)),
    ("software", .array (s.software.map fun e => .object e.members)),
    ("collector_warnings", .array (s.collectorWarnings.map .str))]

def InventorySnapshot.members (s : InventorySnapshot) : List (String × Value) :=
  s.fixedMembers ++ if s.sources = [] then [] else
    [("sources", .array (s.sources.map fun c => .object c.members))]

/-! ## What is written is read as these values -/

section Reads

open Json (Reads)
open Json.Reads (Member)

variable {depth : Nat}

theorem reads_optionValue (o : Option String) :
    Reads (depth + 1) (Json.opt Json.str o) (optionValue o) :=
  Reads.opt o fun s _ => Reads.str s

theorem reads_optionalMember (name : String) (o : Option String) :
    List.Forall₂ (Member (depth + 1)) (optionalField name o) (optionalMember name o) := by
  cases o with
  | none => exact .nil
  | some s => exact .cons ⟨rfl, Reads.str s⟩ .nil

/-- A list of what is read is read. -/
theorem reads_map {α : Type} {json : α → Bytes} {value : α → Value} (xs : List α)
    (h : ∀ x, Reads depth (json x) (value x)) :
    Reads (depth + 1) (Json.array (xs.map json)) (.array (xs.map value)) := by
  refine Reads.array ?_
  rw [List.forall₂_map_left_iff, List.forall₂_map_right_iff, List.forall₂_same]
  exact fun x _ => h x

theorem EndpointIdentifier.reads (i : EndpointIdentifier) :
    Reads (depth + 2) i.json (.object i.members) :=
  Reads.object (.cons ⟨rfl, Reads.str _⟩ (.cons ⟨rfl, Reads.str _⟩ .nil))

theorem SoftwareEntry.reads (e : SoftwareEntry) : Reads (depth + 2) e.json (.object e.members) := by
  refine Reads.object (List.rel_append (List.rel_append (List.rel_append (List.rel_append
    (List.rel_append ?_ (reads_optionalMember _ _)) (reads_optionalMember _ _))
    (reads_optionalMember _ _)) (reads_optionalMember _ _)) (reads_optionalMember _ _))
  exact .cons ⟨rfl, Reads.str _⟩ (.cons ⟨rfl, reads_optionValue _⟩
    (.cons ⟨rfl, reads_optionValue _⟩ (.cons ⟨rfl, reads_optionValue _⟩
    (.cons ⟨rfl, Reads.str _⟩ (.cons ⟨rfl, reads_optionValue _⟩ .nil)))))

theorem CollectionSource.reads (c : CollectionSource) :
    Reads (depth + 2) c.json (.object c.members) :=
  Reads.object (.cons ⟨rfl, Reads.str _⟩ (.cons ⟨rfl, Reads.str _⟩ (.cons ⟨rfl, Reads.str _⟩
    (.cons ⟨rfl, reads_optionValue _⟩ (.cons ⟨rfl, Reads.str _⟩
    (.cons ⟨rfl, reads_optionValue _⟩ .nil))))))

theorem reads_labels (labels : List (String × String)) :
    Reads (depth + 2) (labelsJson labels) (.object (labels.map fun l => (l.1, .str l.2))) := by
  refine Reads.object ?_
  rw [List.forall₂_map_left_iff, List.forall₂_map_right_iff, List.forall₂_same]
  exact fun l _ => ⟨rfl, Reads.str l.2⟩

/-- **The canonical JSON of a snapshot is read as its members.** -/
theorem InventorySnapshot.reads (s : InventorySnapshot) :
    Reads (depth + 4) s.toCanonicalJson (.object s.members) := by
  refine Reads.object (List.rel_append ?_ ?_)
  · exact .cons ⟨rfl, Reads.nat _⟩ (.cons ⟨rfl, Reads.str _⟩ (.cons ⟨rfl, Reads.str _⟩
      (.cons ⟨rfl, Reads.str _⟩ (.cons ⟨rfl, Reads.str _⟩ (.cons ⟨rfl, reads_optionValue _⟩
      (.cons ⟨rfl, reads_optionValue _⟩ (.cons ⟨rfl, reads_optionValue _⟩
      (.cons ⟨rfl, reads_optionValue _⟩ (.cons ⟨rfl, Reads.str _⟩
      (.cons ⟨rfl, reads_labels _⟩ (.cons ⟨rfl, reads_map _ EndpointIdentifier.reads⟩
      (.cons ⟨rfl, reads_map _ SoftwareEntry.reads⟩
      (.cons ⟨rfl, reads_map _ Reads.str⟩ .nil)))))))))))))
  · split
    · exact .nil
    · exact .cons ⟨rfl, reads_map _ CollectionSource.reads⟩ .nil

end Reads

/-! ## The values are read as what was written -/

theorem lookup_cons_ite (name name' : String) (v : Value) (m : List (String × Value)) :
    ((name', v) :: m).lookup name = if name = name' then some v else m.lookup name := by
  by_cases h : name = name'
  · simp [h]
  · simp [List.lookup_cons, h, beq_false_of_ne h]

theorem lookup_optionalMember (name name' : String) (o : Option String) :
    (optionalMember name' o).lookup name = if name = name' then o.map Value.str else none := by
  cases o with
  | none => simp [optionalMember]
  | some s => exact lookup_cons_ite name name' (.str s) []

namespace Field

variable {α : Type} {m : List (String × Value)} {name : String}

theorem option_optionValue (o : Option String) : option string (optionValue o) = some o := by
  cases o <;> rfl

/-- A string left out is absent. -/
theorem elim_string (o : Option String) :
    o.elim (some none) (option string ∘ Value.str) = some o := by
  cases o <;> rfl

/-- ... and so is a scope. -/
theorem elim_scope (o : Option InstallationScope) :
    o.elim (some none)
      (option (variant InstallationScope.ofStr) ∘ Value.str ∘ InstallationScope.asStr) = some o := by
  rcases o with _ | scope
  · rfl
  · cases scope <;> rfl

theorem vec_map {read : Value → Option α} {value : α → Value} (xs : List α)
    (h : ∀ x ∈ xs, read (value x) = some x) : vec read (.array (xs.map value)) = some xs := by
  show (xs.map value).mapM read = some xs
  induction xs with
  | nil => rfl
  | cons x xs ih =>
    rw [List.map_cons, List.mapM_cons, h x List.mem_cons_self,
      ih fun y hy => h y (List.mem_cons_of_mem _ hy)]
    rfl

theorem struct_of {names : List String} (h : (m.map Prod.fst).Sublist names) (hn : names.Nodup) :
    struct names (.object m) = some m :=
  if_pos ⟨h.nodup hn, fun _ hmem => h.subset hmem⟩

end Field

theorem IdentifierType.ofStr_asStr (t : IdentifierType) : ofStr t.asStr = some t := by
  cases t <;> rfl

theorem SoftwareSource.ofStr_asStr (s : SoftwareSource) : ofStr s.asStr = some s := by
  cases s <;> rfl

theorem CollectionStatus.ofStr_asStr (s : CollectionStatus) : ofStr s.asStr = some s := by
  cases s <;> rfl

theorem EndpointIdentifier.ofValue_members (i : EndpointIdentifier) :
    ofValue (.object i.members) = some i := by
  have hstruct : Field.struct fieldNames (.object i.members) = some i.members :=
    Field.struct_of (List.Sublist.refl _) (by decide)
  unfold ofValue
  rw [hstruct]
  simp [members, Field.required, Field.variant, Field.string, lookup_cons_ite,
    IdentifierType.ofStr_asStr]

theorem CollectionSource.ofValue_members (c : CollectionSource) :
    ofValue (.object c.members) = some c := by
  have hstruct : Field.struct fieldNames (.object c.members) = some c.members :=
    Field.struct_of (List.Sublist.refl _) (by decide)
  unfold ofValue
  rw [hstruct]
  simp [members, Field.required, Field.optional, Field.variant, Field.string, lookup_cons_ite,
    SoftwareSource.ofStr_asStr, CollectionStatus.ofStr_asStr, Field.option_optionValue]

theorem sublist_optionalMember (name : String) (o : Option String) :
    ((optionalMember name o).map Prod.fst).Sublist [name] := by
  cases o with
  | none => exact List.nil_sublist _
  | some s => exact List.Sublist.refl _

/-- An entry is read back, with the identities it has and without the others. -/
theorem SoftwareEntry.ofValue_members (e : SoftwareEntry) :
    ofValue (.object e.members) = some e := by
  have hnames : (e.members.map Prod.fst).Sublist fieldNames := by
    simp only [members, List.map_append]
    exact (((((List.Sublist.refl _).append (sublist_optionalMember _ _)).append
      (sublist_optionalMember _ _)).append (sublist_optionalMember _ _)).append
      (sublist_optionalMember _ _)).append (sublist_optionalMember _ _)
  unfold ofValue
  rw [Field.struct_of hnames (by decide)]
  simp [members, Field.required, Field.optional, Field.variant, Field.string, List.lookup_append,
    lookup_cons_ite, lookup_optionalMember, SoftwareSource.ofStr_asStr, Field.option_optionValue,
    Field.elim_string, Field.elim_scope]

/-- The labels are a map: each key once, in order. -/
def InventorySnapshot.LabelsSorted (s : InventorySnapshot) : Prop :=
  (s.labels.map Prod.fst).Pairwise (· < ·)

instance : DecidablePred InventorySnapshot.LabelsSorted := fun s =>
  inferInstanceAs (Decidable ((s.labels.map Prod.fst).Pairwise (· < ·)))

theorem Field.map_labels {labels : List (String × String)}
    (h : (labels.map Prod.fst).Pairwise (· < ·)) :
    Field.map (.object (labels.map fun l => (l.1, .str l.2))) = some labels := by
  have hkeys : (labels.map fun l => (l.1, Value.str l.2)).map Prod.fst = labels.map Prod.fst := by
    rw [List.map_map]
    rfl
  have hread : (labels.map fun l => (l.1, Value.str l.2)).mapM
      (fun m => (Field.string m.2).map fun s => (m.1, s)) = some labels := by
    clear h hkeys
    induction labels with
    | nil => rfl
    | cons l labels ih =>
      rw [List.map_cons, List.mapM_cons, ih]
      rfl
  unfold Field.map
  dsimp only
  rw [hkeys, if_pos h, hread]

/-- **A snapshot is read back**, every field of it. -/
theorem InventorySnapshot.ofValue_members {s : InventorySnapshot} (hlabels : s.LabelsSorted)
    (hversion : s.schemaVersion < 2 ^ 16) : ofValue (.object s.members) = some s := by
  have hnames : (s.members.map Prod.fst).Sublist fieldNames := by
    unfold members
    split
    · exact List.sublist_append_left (fieldNames.take 14) ["sources"]
    · exact List.Sublist.refl _
  have hschema : Field.u16 (.nat s.schemaVersion) = some s.schemaVersion := if_pos hversion
  have hidentifiers : Field.vec EndpointIdentifier.ofValue
      (.array (s.identifiers.map fun i => .object i.members)) = some s.identifiers :=
    Field.vec_map _ fun i _ => i.ofValue_members
  have hsoftware : Field.vec SoftwareEntry.ofValue
      (.array (s.software.map fun e => .object e.members)) = some s.software :=
    Field.vec_map _ fun e _ => e.ofValue_members
  have hwarnings : Field.vec Field.string (.array (s.collectorWarnings.map .str))
      = some s.collectorWarnings := Field.vec_map _ fun _ _ => rfl
  have hsources : Field.defaulted s.members "sources" (Field.vec CollectionSource.ofValue)
      = some s.sources := by
    unfold Field.defaulted
    by_cases hs : s.sources = []
    · simp [members, fixedMembers, hs, lookup_cons_ite]
    · have hlookup : s.members.lookup "sources"
          = some (.array (s.sources.map fun c => .object c.members)) := by
        simp [members, fixedMembers, hs, lookup_cons_ite]
      rw [hlookup]
      exact Field.vec_map _ fun c _ => c.ofValue_members
  have hfixed : ∀ {name v}, s.fixedMembers.lookup name = some v → s.members.lookup name = some v :=
    fun h => by rw [members, List.lookup_append, h, Option.some_or]
  have hrequired : ∀ {α : Type} {name v} {read : Value → Option α} {x : α},
      s.fixedMembers.lookup name = some v → read v = some x →
      Field.required s.members name read = some x :=
    fun h hread => by rw [Field.required, hfixed h, Option.bind_some, hread]
  have hstring : ∀ {name text}, s.fixedMembers.lookup name = some (.str text) →
      Field.required s.members name Field.string = some text := fun h => hrequired h rfl
  have hoption : ∀ {name o}, s.fixedMembers.lookup name = some (optionValue o) →
      Field.optional s.members name Field.string = some o :=
    fun h => by rw [Field.optional, hfixed h]; exact Field.option_optionValue _
  have hbind : ∀ {α : Type} {x : Option α} {a : α} {f : α → Option InventorySnapshot},
      x = some a → (x >>= f) = f a := fun h => by rw [h]; rfl
  unfold ofValue
  rw [hbind (Field.struct_of hnames (by decide)), hbind (hrequired rfl hschema)]
  -- the identities and the host, the four of its system, and the agent's version
  iterate 4 rw [hbind (hstring rfl)]
  iterate 4 rw [hbind (hoption rfl)]
  rw [hbind (hstring rfl), hbind (hrequired rfl (Field.map_labels hlabels)),
    hbind (hrequired rfl hidentifiers), hbind (hrequired rfl hsoftware),
    hbind (hrequired rfl hwarnings), hbind hsources]
  rfl

/-- **A valid snapshot goes through JSON as it is.** -/
theorem roundTrips_of_deserializes {L : Libraries} (hL : L.Deserializes) {s : InventorySnapshot}
    (hlabels : s.LabelsSorted) (hversion : s.schemaVersion < 2 ^ 16) : L.RoundTrips s :=
  hL _ _ s s.reads.document (s.ofValue_members hlabels hversion)

end Lariska
