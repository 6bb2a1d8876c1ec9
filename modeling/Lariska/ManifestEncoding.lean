import Lariska.JsonObject
import Lariska.ReleaseManifest

/-!
# The bytes a publisher signs

`canonical_manifest` encodes a manifest by way of a JSON value, whose map
keeps its keys sorted or in the order of insertion, as the features of
`serde_json` have it, and a `BTreeMap`. The bytes are the same either way
(`canonicalManifest_eq`), and they bind the manifest: they are read back as
what it was (`canonical_binds_manifest`).
-/

namespace Lariska

namespace ReleaseManifest

/-- The members `Serialize` gives a manifest, in declaration order. -/
def members (m : ReleaseManifest) : List (String × Json.Scalar) := [
  ("schema", .nat m.schema),
  ("key_id", .str m.keyId),
  ("version", .str m.version),
  ("platform", .str m.platform),
  ("package_kind", .str m.packageKind.asStr),
  ("size_bytes", .nat m.sizeBytes),
  ("sha256", .str m.sha256),
  ("expires_at", .nat m.expiresAt),
  ("sequence", .nat m.sequence)]

/-- `serde_json::to_value`, in the order its map is iterated: that of
insertion with the feature `preserve_order`, that of the keys without. -/
def toValue (preserveOrder : Bool) (m : ReleaseManifest) : List (String × Json.Scalar) :=
  if preserveOrder then m.members else (Std.TreeMap.ofList m.members).toList

/-- The `BTreeMap` the members are collected into. -/
def sorted (preserveOrder : Bool) (m : ReleaseManifest) : List (String × Json.Scalar) :=
  (Std.TreeMap.ofList (m.toValue preserveOrder)).toList

/-- `canonical_manifest`. -/
def canonicalManifest (preserveOrder : Bool) (m : ReleaseManifest) : Bytes :=
  Json.document (m.sorted preserveOrder)

end ReleaseManifest

/-! ## Reading a manifest -/

/-- The variant of a name, as `Deserialize` has it. -/
def PackageKind.ofStr (name : String) : Option PackageKind :=
  if name = "deb" then some .deb
  else if name = "rpm" then some .rpm
  else if name = "msi" then some .msi
  else if name = "pkg" then some .pkg
  else none

/-- An integer member, within its type. -/
def natMember (members : List (String × Json.Scalar)) (key : String) (bound : Nat) : Option Nat :=
  match members.lookup key with
  | some (.nat n) => if n < bound then some n else none
  | _ => none

def strMember (members : List (String × Json.Scalar)) (key : String) : Option String :=
  match members.lookup key with
  | some (.str s) => some s
  | _ => none

namespace ReleaseManifest

def fieldNames : List String :=
  ["schema", "key_id", "version", "platform", "package_kind", "size_bytes", "sha256", "expires_at",
    "sequence"]

/-- `Deserialize` of a manifest from an object: no field is unknown, missing or
there twice. -/
def ofMembers (members : List (String × Json.Scalar)) : Option ReleaseManifest :=
  if (members.map Prod.fst).Nodup ∧ ∀ key ∈ members.map Prod.fst, key ∈ fieldNames then do
    let schema ← natMember members "schema" (2 ^ 32)
    let keyId ← strMember members "key_id"
    let version ← strMember members "version"
    let platform ← strMember members "platform"
    let packageKind ← (strMember members "package_kind").bind PackageKind.ofStr
    let sizeBytes ← natMember members "size_bytes" (2 ^ 64)
    let sha256 ← strMember members "sha256"
    let expiresAt ← natMember members "expires_at" (2 ^ 64)
    let sequence ← natMember members "sequence" (2 ^ 64)
    some { schema, keyId, version, platform, packageKind, sizeBytes, sha256, expiresAt, sequence }
  else none

/-- `serde_json::from_slice` at `ReleaseManifest`, of an object. -/
def decode (text : Bytes) : Option ReleaseManifest := (Json.readObject text).bind ofMembers

/-- The integers are of their types. -/
structure Typed (m : ReleaseManifest) : Prop where
  schema : m.schema < 2 ^ 32
  sizeBytes : m.sizeBytes < 2 ^ 64
  expiresAt : m.expiresAt < 2 ^ 64
  sequence : m.sequence < 2 ^ 64

/-! ## What is written is read -/

variable {m m' : ReleaseManifest}

/-- The members in the order of their keys. -/
def sortedMembers (m : ReleaseManifest) : List (String × Json.Scalar) := [
  ("expires_at", .nat m.expiresAt),
  ("key_id", .str m.keyId),
  ("package_kind", .str m.packageKind.asStr),
  ("platform", .str m.platform),
  ("schema", .nat m.schema),
  ("sequence", .nat m.sequence),
  ("sha256", .str m.sha256),
  ("size_bytes", .nat m.sizeBytes),
  ("version", .str m.version)]

theorem sorted_eq (preserveOrder : Bool) (m : ReleaseManifest) :
    m.sorted preserveOrder = m.sortedMembers := by
  cases preserveOrder with
  | true => rfl
  | false => rfl

/-- **The signed bytes do not depend on the order of the map.** -/
theorem canonicalManifest_eq (preserveOrder : Bool) (m : ReleaseManifest) :
    m.canonicalManifest preserveOrder = m.canonical := by
  rw [canonicalManifest, sorted_eq]
  rfl

theorem ofStr_asStr (kind : PackageKind) : PackageKind.ofStr kind.asStr = some kind := by
  cases kind <;> rfl

theorem ofMembers_sorted (h : m.Typed) (preserveOrder : Bool) :
    ofMembers (m.sorted preserveOrder) = some m := by
  have hkeys : (m.sortedMembers.map Prod.fst).Nodup ∧
      ∀ key ∈ m.sortedMembers.map Prod.fst, key ∈ fieldNames := by
    show ["expires_at", "key_id", "package_kind", "platform", "schema", "sequence", "sha256",
      "size_bytes", "version"].Nodup ∧ ∀ key ∈ ["expires_at", "key_id", "package_kind", "platform",
      "schema", "sequence", "sha256", "size_bytes", "version"], key ∈ fieldNames
    decide
  have hschema : natMember m.sortedMembers "schema" (2 ^ 32) = some m.schema := if_pos h.schema
  have hsize : natMember m.sortedMembers "size_bytes" (2 ^ 64) = some m.sizeBytes :=
    if_pos h.sizeBytes
  have hexpires : natMember m.sortedMembers "expires_at" (2 ^ 64) = some m.expiresAt :=
    if_pos h.expiresAt
  have hsequence : natMember m.sortedMembers "sequence" (2 ^ 64) = some m.sequence :=
    if_pos h.sequence
  have hkind : (strMember m.sortedMembers "package_kind").bind PackageKind.ofStr
      = some m.packageKind := ofStr_asStr m.packageKind
  rw [sorted_eq, ofMembers, if_pos hkeys, hschema, hsize, hexpires, hsequence, hkind]
  rfl

theorem sortedMembers_inj (h : m.sortedMembers = m'.sortedMembers) : m = m' := by
  have hkind : m.packageKind = m'.packageKind := by
    have hstr : m.packageKind.asStr = m'.packageKind.asStr := by
      simp only [sortedMembers, List.cons.injEq, Prod.mk.injEq, Json.Scalar.str.injEq] at h
      exact h.2.2.1.2
    have hof := congrArg PackageKind.ofStr hstr
    rw [ofStr_asStr, ofStr_asStr] at hof
    exact Option.some.inj hof
  obtain ⟨schema, keyId, version, platform, packageKind, sizeBytes, sha256, expiresAt, sequence⟩ := m
  obtain ⟨schema', keyId', version', platform', packageKind', sizeBytes', sha256', expiresAt',
    sequence'⟩ := m'
  simp only [sortedMembers, List.cons.injEq, Prod.mk.injEq, Json.Scalar.str.injEq,
    Json.Scalar.nat.injEq, true_and, and_true] at h hkind
  obtain ⟨rfl, rfl, -, rfl, rfl, rfl, rfl, rfl, rfl⟩ := h
  rw [hkind]

/-- **The signed bytes bind the manifest.** Whatever the order of the map: no
two manifests have the same bytes; the keys stand in them in strictly ascending
order; and they decode to the manifest they were made from. -/
theorem canonical_binds_manifest :
    (∀ preserveOrder preserveOrder' m m',
      canonicalManifest preserveOrder m = canonicalManifest preserveOrder' m' → m = m') ∧
    (∀ preserveOrder m, ∃ members,
      Json.readObject (canonicalManifest preserveOrder m) = some members ∧
        (members.map Prod.fst).Pairwise (· < ·)) ∧
    ∀ preserveOrder m, m.Typed → decode (canonicalManifest preserveOrder m) = some m := by
  refine ⟨fun p p' m m' h => ?_, fun p m => ?_, fun p m h => ?_⟩
  · have hsorted := Json.document_inj h
    rw [sorted_eq, sorted_eq] at hsorted
    exact sortedMembers_inj hsorted
  · refine ⟨m.sorted p, Json.readObject_document _, ?_⟩
    rw [List.pairwise_map]
    refine Std.TreeMap.ordered_keys_toList.imp fun {a b} hab => ?_
    exact compareOfLessAndEq_eq_lt.mp hab
  · rw [decode, canonicalManifest, Json.readObject_document, Option.bind_some, ofMembers_sorted h p]

/-- A manifest whose strings need every kind of escape. -/
theorem escaped_manifest_decodes :
    decode (canonicalManifest false ⟨1, "a\"b\\c\n\u0001", "é", "p", .deb, 1, "s", 2, 3⟩)
      = some ⟨1, "a\"b\\c\n\u0001", "é", "p", .deb, 1, "s", 2, 3⟩ :=
  canonical_binds_manifest.2.2 _ _ ⟨by decide, by decide, by decide, by decide⟩

end ReleaseManifest

end Lariska
