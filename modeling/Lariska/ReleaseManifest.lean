import Lariska.Effect
import Lariska.Json

/-!
# Release manifests and the local trust policy

A release is described by a signed manifest, and what makes it acceptable is
local: the keyring, the package kind and the bounds of `UpdateConfig`. This
module is the part of the verification that reads nothing but the manifest
and the configuration; the parts that read the clock, the ledger or a file
are programs (`Lariska.UpdateLedger`).

What is not in the repository is gathered in `Platform`: the hash, the
signature scheme, the semantic-version parser with its order, the JSON
decoder of a signed manifest, and what the build target fixes.
-/

namespace Lariska

abbrev Bytes := List UInt8

inductive PackageKind where
  | deb | rpm | msi | pkg
deriving DecidableEq

def PackageKind.asStr : PackageKind → String
  | .deb => "deb"
  | .rpm => "rpm"
  | .msi => "msi"
  | .pkg => "pkg"

structure ReleaseManifest where
  schema : Nat
  keyId : String
  version : String
  platform : String
  packageKind : PackageKind
  sizeBytes : Nat
  sha256 : String
  expiresAt : Nat
  sequence : Nat
deriving DecidableEq

structure SignedManifest where
  manifest : ReleaseManifest
  signature : String
deriving DecidableEq

/-- **What the agent is built on**: the third-party libraries and the build
target, as far as the update protocol uses them. -/
structure Platform where
  /-- `semver::Version`. -/
  Version : Type
  /-- Its total order. -/
  order : LinearOrder Version
  /-- `semver::Version::parse`. -/
  semver : String → Except String Version
  /-- An Ed25519 public key. -/
  Key : Type
  /-- `VerifyingKey::from_bytes`. -/
  verifyingKey : Bytes → Except String Key
  /-- `VerifyingKey::verify_strict`, of a message and a signature. -/
  verifyStrict : Key → Bytes → Bytes → Bool
  /-- The lowercase hexadecimal SHA-256 of a byte string. -/
  sha256 : Bytes → String
  /-- `serde_json::from_slice` at `SignedManifest`. -/
  readSigned : Bytes → Option SignedManifest
  /-- `crate::managed::target_triple`. -/
  targetTriple : String
  /-- `PackageKind::matches_os`. -/
  matchesOs : PackageKind → Bool
  /-- `Path::is_absolute`. -/
  isAbsolute : String → Bool
  /-- `CARGO_PKG_VERSION` of the supervisor. -/
  cargoPkgVersion : String

instance (P : Platform) : LinearOrder P.Version := P.order

/-- Why an operation failed: with one of the program's own messages, with one
completed by a detail, or with the text of an operating-system or library
error. -/
inductive Fault where
  | text (message : String)
  | detailed (message detail : String)
  | os (detail : String)
deriving DecidableEq

def Fault.message : Fault → String
  | .text message => message
  | .detailed message detail => message ++ detail
  | .os detail => detail

instance : Coe String Fault := ⟨Fault.text⟩

/-- Fails with an error unless `c` holds. -/
def require (c : Prop) [Decidable c] (fault : Fault) : Except Fault Unit :=
  if c then .ok () else .error fault

/-- `if let Some(a) = o { check(a)? }`. -/
def whenSome {α : Type} (o : Option α) (check : α → Except Fault Unit) : Except Fault Unit :=
  match o with
  | some a => check a
  | none => .ok ()

theorem require_eq_ok {c : Prop} [Decidable c] {fault : Fault} {u : Unit} :
    require c fault = .ok u ↔ c := by
  unfold require
  split <;> simp_all

/-- A sequence of checks succeeds when each of them does. -/
theorem Except.bind_eq_ok {ε α β : Type} {x : Except ε α} {f : α → Except ε β} {b : β} :
    x.bind f = .ok b ↔ ∃ a, x = .ok a ∧ f a = .ok b := by
  cases x with
  | ok a => simp [Except.bind]
  | error e => simp [Except.bind]

/-! ## Identifiers, digests and versions -/

def isDigit (b : UInt8) : Bool := Json.byte '0' ≤ b && b ≤ Json.byte '9'

def isLowerHexDigit (b : UInt8) : Bool :=
  isDigit b || (Json.byte 'a' ≤ b && b ≤ Json.byte 'f')

/-- `u8::is_ascii_hexdigit`. -/
def isHexDigit (b : UInt8) : Bool :=
  isLowerHexDigit b || (Json.byte 'A' ≤ b && b ≤ Json.byte 'F')

/-- `u8::is_ascii_uppercase`. -/
def isUpper (b : UInt8) : Bool := Json.byte 'A' ≤ b && b ≤ Json.byte 'Z'

/-- `u8::is_ascii_alphanumeric`. -/
def isAlphanumeric (b : UInt8) : Bool :=
  isDigit b || isUpper b || (Json.byte 'a' ≤ b && b ≤ Json.byte 'z')

def hexValue (b : UInt8) : Nat :=
  if isDigit b then b.toNat - 48
  else if Json.byte 'a' ≤ b then b.toNat - 87
  else b.toNat - 55

def hexPairs : List UInt8 → Bytes
  | a :: b :: rest => UInt8.ofNat (16 * hexValue a + hexValue b) :: hexPairs rest
  | _ => []

/-- `decode_hex::<N>`. -/
def decodeHex (n : Nat) (value : String) : Except Fault Bytes :=
  if value.utf8ByteSize ≠ n * 2 ∨ ¬ (Json.bytes value).all isHexDigit then
    .error (.detailed "expected " (toString (n * 2) ++ " hexadecimal characters"))
  else .ok (hexPairs (Json.bytes value))

def safeId (id : String) : Bool :=
  !id.isEmpty && id.utf8ByteSize ≤ 64
    && (Json.bytes id).all (fun b => isAlphanumeric b || b == Json.byte '-' || b == Json.byte '_')

/-- `valid_nonce`: 32 lowercase hexadecimal characters. -/
def validNonce (nonce : String) : Bool :=
  nonce.utf8ByteSize == 32 && (Json.bytes nonce).all isLowerHexDigit

def validateNonce (nonce : String) : Except Fault Unit :=
  require (validNonce nonce) "transaction nonce must contain 32 lowercase hex characters"

section Versions

variable (P : Platform)

def parseVersion (version : String) : Except Fault P.Version :=
  if version.utf8ByteSize > 128 then .error (.text "version is too long")
  else match P.semver version with
    | .ok v => .ok v
    | .error _ => .error (.text "update version must be valid semantic version")

variable {P}

/-- A version accepted by `parse_version` is one the parser reads. -/
theorem parseVersion_eq_ok {version : String} {v : P.Version} :
    parseVersion P version = .ok v ↔ version.utf8ByteSize ≤ 128 ∧ P.semver version = .ok v := by
  unfold parseVersion
  split
  · next h => simp only [reduceCtorEq, false_iff, not_and]; omega
  · next h =>
    cases hs : P.semver version with
    | ok w => simp only [Except.ok.injEq, iff_and_self]; exact fun _ => Nat.le_of_not_lt h
    | error e => simp

end Versions

/-! ## The local policy -/

structure TrustedKey where
  id : String
  publicKey : String
  revoked : Bool

def hardMaxDownloadBytes : Nat := 1024 * 1024 * 1024

structure UpdateConfig where
  trustedKeys : List TrustedKey
  packageKind : Option PackageKind
  maxDownloadBytes : Nat
  healthTimeoutSecs : Nat
  historyLimit : Nat
  /-- Exact signed version an administrator authorizes for emergency
  recovery. -/
  emergencyVersion : Option String
  windowsSignerThumbprint : Option String
  macosTeamId : Option String
  allowSelfSignedNative : Bool
  macosSignerSha256 : Option String
  nativeStateDir : Option String

/-- `UpdateConfig::default`. -/
def UpdateConfig.default : UpdateConfig where
  trustedKeys := []
  packageKind := none
  maxDownloadBytes := 256 * 1024 * 1024
  healthTimeoutSecs := 180
  historyLimit := 20
  emergencyVersion := none
  windowsSignerThumbprint := none
  macosTeamId := none
  allowSelfSignedNative := false
  macosSignerSha256 := none
  nativeStateDir := none

/-- The part of the agent's configuration the update protocol reads. -/
structure Config where
  updates : UpdateConfig

namespace UpdateConfig

variable (P : Platform)

/-- The loop of `validate` over the keyring, with the ids seen so far. -/
def validateKeys (ids : List String) : List TrustedKey → Except Fault Unit
  | [] => .ok ()
  | key :: keys => do
    require (safeId key.id ∧ key.id ∉ ids) "updates key ids must be unique ASCII identifiers"
    let bytes ← decodeHex 32 key.publicKey
    match P.verifyingKey bytes with
    | .ok _ => validateKeys (key.id :: ids) keys
    | .error e => .error (.detailed "invalid Ed25519 public key: " e)

/-- The checks of `validate` on the native signer settings. -/
def validateSigners (config : UpdateConfig) : Except Fault Unit := do
  whenSome config.windowsSignerThumbprint fun pin =>
    require (pin.utf8ByteSize = 40 ∧ (Json.bytes pin).all isHexDigit)
      "updates.windows_signer_thumbprint must contain 40 hex characters"
  whenSome config.macosTeamId fun team =>
    require (team.utf8ByteSize = 10 ∧ (Json.bytes team).all (fun b => isUpper b || isDigit b))
      "updates.macos_team_id must be a 10-character Apple Team ID"
  whenSome config.macosSignerSha256 fun pin => discard (decodeHex 32 pin)
  require (config.allowSelfSignedNative = false ∨ config.windowsSignerThumbprint ≠ none
      ∨ config.macosSignerSha256 ≠ none)
    "self-signed native updates require a locally pinned signing certificate"

/-- `UpdateConfig::validate`. -/
def validate (config : UpdateConfig) : Except Fault Unit := do
  require (config.maxDownloadBytes ≠ 0 ∧ config.maxDownloadBytes ≤ hardMaxDownloadBytes)
    (.detailed "updates.max_download_bytes must be between 1 and " (toString hardMaxDownloadBytes))
  require (30 ≤ config.healthTimeoutSecs ∧ config.healthTimeoutSecs ≤ 3600)
    "updates.health_timeout_secs must be between 30 and 3600"
  require (1 ≤ config.historyLimit ∧ config.historyLimit ≤ 100)
    "updates.history_limit must be between 1 and 100"
  require (config.trustedKeys.length ≤ 32) "updates.trusted_keys has more than 32 keys"
  validateKeys P [] config.trustedKeys
  whenSome config.emergencyVersion fun version => discard (parseVersion P version)
  whenSome config.nativeStateDir fun path =>
    require (P.isAbsolute path) "updates.native_state_dir must be absolute"
  validateSigners config

end UpdateConfig

/-! ## Verification of a manifest -/

namespace ReleaseManifest

/-- `canonical_manifest`: compact JSON with the keys in ascending order, the
bytes a publisher signs. -/
def canonical (m : ReleaseManifest) : Bytes :=
  Json.object [
    ("expires_at", Json.nat m.expiresAt),
    ("key_id", Json.str m.keyId),
    ("package_kind", Json.str m.packageKind.asStr),
    ("platform", Json.str m.platform),
    ("schema", Json.nat m.schema),
    ("sequence", Json.nat m.sequence),
    ("sha256", Json.str m.sha256),
    ("size_bytes", Json.nat m.sizeBytes),
    ("version", Json.str m.version)]

/-- The manifest as a stored document has it, its fields in declaration
order. -/
def json (m : ReleaseManifest) : Bytes :=
  Json.object [
    ("schema", Json.nat m.schema),
    ("key_id", Json.str m.keyId),
    ("version", Json.str m.version),
    ("platform", Json.str m.platform),
    ("package_kind", Json.str m.packageKind.asStr),
    ("size_bytes", Json.nat m.sizeBytes),
    ("sha256", Json.str m.sha256),
    ("expires_at", Json.nat m.expiresAt),
    ("sequence", Json.nat m.sequence)]

end ReleaseManifest

section Verify

variable (P : Platform) (config : Config) (signed : SignedManifest)

/-- The checks of `verify_manifest_inner` that precede the expiry. -/
def verifyShape : Except Fault Unit := do
  config.updates.validate P
  require (signed.manifest.schema = 1) "unsupported signed update manifest schema"
  discard (parseVersion P signed.manifest.version)
  require (signed.manifest.platform = P.targetTriple)
    (.detailed "foreign-platform manifest: "
      (signed.manifest.platform ++ " != " ++ P.targetTriple))
  require (P.matchesOs signed.manifest.packageKind = true
      ∧ config.updates.packageKind = some signed.manifest.packageKind)
    "manifest package kind does not match locally provisioned native installer"
  require (signed.manifest.sequence ≠ 0) "release sequence must be positive"
  require (signed.manifest.sizeBytes ≠ 0
      ∧ signed.manifest.sizeBytes ≤ config.updates.maxDownloadBytes
      ∧ signed.manifest.sizeBytes ≤ hardMaxDownloadBytes)
    "signed package size exceeds the local download limit"
  require (signed.manifest.sha256.utf8ByteSize = 64
      ∧ (Json.bytes signed.manifest.sha256).all isLowerHexDigit)
    "manifest SHA-256 must contain 64 lowercase hex characters"

/-- The checks of `verify_manifest_inner` that follow the expiry: a key of
the local keyring that is not revoked has signed the canonical bytes. -/
def verifySignature : Except Fault Unit :=
  match config.updates.trustedKeys.find?
      (fun k => k.id == signed.manifest.keyId && !k.revoked) with
  | none => .error (.text "manifest signing key is unknown or revoked in the local keyring")
  | some key => do
    let bytes ← decodeHex 32 key.publicKey
    let signature ← decodeHex 64 signed.signature
    match P.verifyingKey bytes with
    | .error e => .error (.os e)
    | .ok verifying =>
      require (P.verifyStrict verifying signed.manifest.canonical signature = true)
        "invalid Ed25519 release manifest signature"

end Verify

end Lariska
