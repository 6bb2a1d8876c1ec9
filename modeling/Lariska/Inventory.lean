import Lariska.JsonSize
import Lariska.ReleaseManifest

/-!
# Inventory snapshots

What the endpoint sends: the snapshot with its software, identifiers and
sources, its JSON text, the check it must pass, and the semantic digest by
which an unchanged snapshot is recognized. The digest leaves out the snapshot
id and the time of collection, which differ every time.

The libraries the endpoint uses for it are gathered in `Libraries`.
-/

namespace Lariska

/-! ## Data -/

inductive IdentifierType where
  | macHash | serialHash | biosUuidHash | tpmEkHash
deriving DecidableEq

structure EndpointIdentifier where
  identifierType : IdentifierType
  valueHash : String
deriving DecidableEq

inductive SoftwareSource where
  | apt | dpkg | rpm | winreg | msi | brew | pip | npm | java | kb | pacman | macBundle | other
deriving DecidableEq

inductive InstallationScope where
  | system | user | runtime | container
deriving DecidableEq

structure SoftwareEntry where
  name : String
  version : Option String
  publisher : Option String
  architecture : Option String
  source : SoftwareSource
  installLocation : Option String
  productIdentity : Option String
  installationIdentity : Option String
  packageId : Option String
  scope : Option InstallationScope
  installInstanceId : Option String
deriving DecidableEq

inductive CollectionStatus where
  | complete | partialResult | failed | notApplicable
deriving DecidableEq

structure CollectionSource where
  source : SoftwareSource
  status : CollectionStatus
  collectedAt : String
  lastCompleteAt : Option String
  collectorVersion : String
  diagnosticCode : Option String
deriving DecidableEq

structure InventorySnapshot where
  schemaVersion : Nat
  snapshotId : String
  agentId : String
  collectedAt : String
  hostname : String
  osFamily : Option String
  osName : Option String
  osVersion : Option String
  osArch : Option String
  agentVersion : String
  /-- The labels, in the order of their keys. -/
  labels : List (String × String)
  identifiers : List EndpointIdentifier
  software : List SoftwareEntry
  collectorWarnings : List String
  sources : List CollectionSource
deriving DecidableEq

def inventorySchemaVersion : Nat := 2
def legacyInventorySchemaVersion : Nat := 1

/-- A lowercase hexadecimal SHA-256 digest. -/
def sha256Hex (digest : String) : Bool :=
  digest.utf8ByteSize == 64 && (Json.bytes digest).all isLowerHexDigit

/-- What holds of the sixteen digits holds of every character of a digest. -/
theorem forall_mem_of_sha256Hex {p : Char → Prop}
    (hp : ∀ n < 128, isLowerHexDigit (Json.byte (Char.ofNat n)) = true → p (Char.ofNat n))
    {digest : String} (h : sha256Hex digest = true) : ∀ c ∈ digest.toList, p c := by
  obtain ⟨-, hhex⟩ := Bool.and_eq_true_iff.mp h
  rw [List.all_eq_true] at hhex
  have hbelow : ∀ b ∈ Json.bytes digest, b < 128 := fun b hb =>
    Json.forall_byte (p := fun b => isLowerHexDigit b = true → b < 128) (by decide +kernel) b
      (hhex b hb)
  intro c hc
  have hascii := Json.toNat_lt_of_bytes hbelow hc
  exact Json.forall_ascii (p := fun c => isLowerHexDigit (Json.byte c) = true → p c) hp hascii
    (hhex _ (Json.byte_mem_bytes hc hascii))

/-- **The libraries the endpoint is built on**, as far as a snapshot goes
through them. -/
structure Libraries where
  /-- The lowercase hexadecimal SHA-256 of a byte string. -/
  sha256 : Bytes → String
  sha256_hex : ∀ bytes, sha256Hex (sha256 bytes) = true
  /-- `str::to_lowercase`. -/
  toLowercase : String → String
  /-- `char::is_alphanumeric`. -/
  isAlphanumeric : Char → Bool
  /-- The zstd encoder. -/
  compress : Bytes → Bytes
  /-- The zstd decoder, read up to so many bytes. -/
  decompress : Nat → Bytes → Except String Bytes
  /-- `serde_json::from_slice` at `InventorySnapshot`. -/
  fromSlice : Bytes → Except String InventorySnapshot

/-! ## JSON -/

def IdentifierType.asStr : IdentifierType → String
  | .macHash => "mac_hash"
  | .serialHash => "serial_hash"
  | .biosUuidHash => "bios_uuid_hash"
  | .tpmEkHash => "tpm_ek_hash"

def SoftwareSource.asStr : SoftwareSource → String
  | .apt => "apt"
  | .dpkg => "dpkg"
  | .rpm => "rpm"
  | .winreg => "winreg"
  | .msi => "msi"
  | .brew => "brew"
  | .pip => "pip"
  | .npm => "npm"
  | .java => "java"
  | .kb => "kb"
  | .pacman => "pacman"
  | .macBundle => "mac_bundle"
  | .other => "other"

def InstallationScope.asStr : InstallationScope → String
  | .system => "system"
  | .user => "user"
  | .runtime => "runtime"
  | .container => "container"

def CollectionStatus.asStr : CollectionStatus → String
  | .complete => "complete"
  | .partialResult => "partial"
  | .failed => "failed"
  | .notApplicable => "not_applicable"

/-- A field that is left out when it is absent. -/
def optionalField (name : String) (value : Option String) : List (String × Bytes) :=
  (value.map fun v => (name, Json.str v)).toList

def EndpointIdentifier.json (i : EndpointIdentifier) : Bytes :=
  Json.object [
    ("identifier_type", Json.str i.identifierType.asStr),
    ("value_hash", Json.str i.valueHash)]

def SoftwareEntry.json (e : SoftwareEntry) : Bytes :=
  Json.object ([
    ("name", Json.str e.name),
    ("version", Json.opt Json.str e.version),
    ("publisher", Json.opt Json.str e.publisher),
    ("architecture", Json.opt Json.str e.architecture),
    ("source", Json.str e.source.asStr),
    ("install_location", Json.opt Json.str e.installLocation)]
    ++ optionalField "product_identity" e.productIdentity
    ++ optionalField "installation_identity" e.installationIdentity
    ++ optionalField "package_id" e.packageId
    ++ optionalField "scope" (e.scope.map InstallationScope.asStr)
    ++ optionalField "install_instance_id" e.installInstanceId)

/-- An entry as `serde_json::json!` has it: a map with its keys in order. -/
def SoftwareEntry.sortedJson (e : SoftwareEntry) : Bytes :=
  Json.object (
    [("architecture", Json.opt Json.str e.architecture)]
    ++ optionalField "install_instance_id" e.installInstanceId
    ++ [("install_location", Json.opt Json.str e.installLocation)]
    ++ optionalField "installation_identity" e.installationIdentity
    ++ [("name", Json.str e.name)]
    ++ optionalField "package_id" e.packageId
    ++ optionalField "product_identity" e.productIdentity
    ++ [("publisher", Json.opt Json.str e.publisher)]
    ++ optionalField "scope" (e.scope.map InstallationScope.asStr)
    ++ [("source", Json.str e.source.asStr), ("version", Json.opt Json.str e.version)])

def CollectionSource.json (s : CollectionSource) : Bytes :=
  Json.object [
    ("source", Json.str s.source.asStr),
    ("status", Json.str s.status.asStr),
    ("collected_at", Json.str s.collectedAt),
    ("last_complete_at", Json.opt Json.str s.lastCompleteAt),
    ("collector_version", Json.str s.collectorVersion),
    ("diagnostic_code", Json.opt Json.str s.diagnosticCode)]

/-- What the digest takes of a source. -/
def CollectionSource.digestJson (s : CollectionSource) : Bytes :=
  Json.object [
    ("collector_version", Json.str s.collectorVersion),
    ("diagnostic_code", Json.opt Json.str s.diagnosticCode),
    ("source", Json.str s.source.asStr),
    ("status", Json.str s.status.asStr)]

def labelsJson (labels : List (String × String)) : Bytes :=
  Json.object (labels.map fun l => (l.1, Json.str l.2))

namespace InventorySnapshot

/-- `to_canonical_json`. -/
def toCanonicalJson (s : InventorySnapshot) : Bytes :=
  Json.object ([
    ("schema_version", Json.nat s.schemaVersion),
    ("snapshot_id", Json.str s.snapshotId),
    ("agent_id", Json.str s.agentId),
    ("collected_at", Json.str s.collectedAt),
    ("hostname", Json.str s.hostname),
    ("os_family", Json.opt Json.str s.osFamily),
    ("os_name", Json.opt Json.str s.osName),
    ("os_version", Json.opt Json.str s.osVersion),
    ("os_arch", Json.opt Json.str s.osArch),
    ("agent_version", Json.str s.agentVersion),
    ("labels", labelsJson s.labels),
    ("identifiers", Json.array (s.identifiers.map EndpointIdentifier.json)),
    ("software", Json.array (s.software.map SoftwareEntry.json)),
    ("collector_warnings", Json.array (s.collectorWarnings.map Json.str))]
    ++ if s.sources = [] then [] else
      [("sources", Json.array (s.sources.map CollectionSource.json))])

end InventorySnapshot

/-- The snapshot is read back from its JSON text as it was. -/
def Libraries.RoundTrips (L : Libraries) (s : InventorySnapshot) : Prop :=
  L.fromSlice s.toCanonicalJson = .ok s

namespace InventorySnapshot

/-- The bytes `content_digest` hashes. -/
def digestPayload (s : InventorySnapshot) : Bytes :=
  Json.object [
    ("agent_version", Json.str s.agentVersion),
    ("collector_warnings", Json.array (s.collectorWarnings.map Json.str)),
    ("hostname", Json.str s.hostname),
    ("identifiers", Json.array (s.identifiers.map EndpointIdentifier.json)),
    ("labels", labelsJson s.labels),
    ("os_arch", Json.opt Json.str s.osArch),
    ("os_family", Json.opt Json.str s.osFamily),
    ("os_name", Json.opt Json.str s.osName),
    ("os_version", Json.opt Json.str s.osVersion),
    ("schema_version", Json.nat s.schemaVersion),
    ("software", Json.array (s.software.map SoftwareEntry.sortedJson)),
    ("sources", Json.array (s.sources.map CollectionSource.digestJson))]

/-- `content_digest`. -/
def contentDigest (L : Libraries) (s : InventorySnapshot) : String := L.sha256 s.digestPayload

end InventorySnapshot

/-! ## Validation -/

/-- `char::is_whitespace`. -/
def isWhitespace (c : Char) : Bool :=
  let n := c.toNat
  (9 ≤ n && n ≤ 13) || n == 0x20 || n == 0x85 || n == 0xA0 || n == 0x1680
    || (0x2000 ≤ n && n ≤ 0x200A) || n == 0x2028 || n == 0x2029 || n == 0x202F || n == 0x205F
    || n == 0x3000

/-- `str::trim`, as characters. -/
def trim (s : String) : List Char :=
  ((s.toList.dropWhile isWhitespace).reverse.dropWhile isWhitespace).reverse

/-- `str::to_ascii_lowercase`. -/
def toAsciiLowercase (s : String) : String := String.ofList (s.toList.map Char.toLower)

/-- The length of a text in UTF-8 bytes. -/
def utf8Length (text : List Char) : Nat := (text.map Char.utf8Size).sum

/-- Fails with a message unless `c` holds. -/
def demand (c : Prop) [Decidable c] (message : String) : Except String Unit :=
  if c then .ok () else .error message

def validateRequired (name value : String) : Except String Unit :=
  demand (trim value ≠ []) (name ++ " is required")

/-- `comparison_key`. -/
def SoftwareEntry.comparisonKey (L : Libraries) (e : SoftwareEntry) : String :=
  L.toLowercase e.name ++ "|" ++ L.toLowercase (e.publisher.getD "") ++ "|"
    ++ L.toLowercase (e.architecture.getD "") ++ "|" ++ e.source.asStr

/-- A diagnostic code of lowercase letters, digits and underscores. -/
def validDiagnosticCode (code : String) : Bool :=
  code.utf8ByteSize ≤ 64 && (Json.bytes code).all fun b =>
    (Json.byte 'a' ≤ b && b ≤ Json.byte 'z') || isDigit b || b == Json.byte '_'

/-- The loop of `validate` over the sources, with those seen so far. -/
def validateSources (seen : List SoftwareSource) : List CollectionSource → Except String Unit
  | [] => .ok ()
  | source :: rest => do
    demand (source.source ∉ seen) "duplicate collection source"
    validateRequired "collector_version" source.collectorVersion
    validateRequired "source collected_at" source.collectedAt
    demand (∀ code ∈ source.diagnosticCode, validDiagnosticCode code = true)
      "invalid diagnostic code"
    demand (source.status = .complete → source.lastCompleteAt ≠ none)
      "complete sources require last_complete_at"
    validateSources (source.source :: seen) rest

/-- An identity of 64 hexadecimal digits. -/
def validIdentity (id : Option String) : Bool :=
  id.any fun value => value.utf8ByteSize == 64 && (Json.bytes value).all isHexDigit

/-- The loop of `validate` over the software of a snapshot of schema 2. -/
def validateSoftware (L : Libraries) (sources : List SoftwareSource) :
    List SoftwareEntry → Except String Unit
  | [] => .ok ()
  | entry :: rest => do
    demand (entry.source ∈ sources) "software source has no completeness state"
    demand (validIdentity entry.installationIdentity = true
        ∧ validIdentity entry.installInstanceId = true)
      "invalid installation identity"
    demand (entry.productIdentity = some (entry.comparisonKey L) ∧ entry.scope ≠ none
        ∧ entry.installLocation = none)
      "invalid v2 product identity or raw install location"
    validateSoftware L sources rest

/-- `InventorySnapshot::validate`. -/
def InventorySnapshot.validate (L : Libraries) (s : InventorySnapshot) : Except String Unit := do
  demand (s.schemaVersion = legacyInventorySchemaVersion ∨ s.schemaVersion = inventorySchemaVersion)
    ("unsupported inventory schema version " ++ toString s.schemaVersion)
  validateRequired "snapshot_id" s.snapshotId
  validateRequired "agent_id" s.agentId
  validateRequired "collected_at" s.collectedAt
  validateRequired "hostname" s.hostname
  validateRequired "agent_version" s.agentVersion
  demand (∀ entry ∈ s.software, trim entry.name ≠ []) "software entries must not have empty names"
  if s.schemaVersion = inventorySchemaVersion then do
    validateSources [] s.sources
    validateSoftware L (s.sources.map CollectionSource.source) s.software
  demand (∀ identifier ∈ s.identifiers, 8 ≤ utf8Length (trim identifier.valueHash))
    "identifier value_hash must be at least 8 characters"

namespace Sample

/-- Libraries for ASCII text, with the digests and documents given. -/
def libraries (digests : List (Bytes × String)) (documents : List (Bytes × InventorySnapshot)) :
    Libraries where
  sha256 bytes := ((digests.lookup bytes).filter sha256Hex).getD
    "0000000000000000000000000000000000000000000000000000000000000000"
  sha256_hex bytes := by
    cases h : (digests.lookup bytes).filter sha256Hex with
    | none => decide
    | some digest => exact (Option.filter_eq_some_iff.mp h).2
  toLowercase := toAsciiLowercase
  isAlphanumeric := Char.isAlphanum
  compress bytes := bytes
  decompress limit bytes := .ok (bytes.take limit)
  fromSlice bytes := ((documents.lookup bytes).map .ok).getD (.error "expected value")

end Sample

end Lariska
