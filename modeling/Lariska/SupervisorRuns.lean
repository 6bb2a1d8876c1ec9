import Lariska.SupervisorRefinement

/-!
# Runs of the supervisor

A `Run` is a host the supervisor has not run on and a sequence of processes
with their scripts, each seeding or supervising under its own configuration.
What it leaves is a history of the transition system, so an invariant of the
system holds in every durable state the run goes through, mid-operation
states included.

Two facts need nothing more than the rules of the system: what reaches the
installer, and what stays in the cache.
-/

namespace Lariska

/-- A sequence of processes on a new host. -/
structure Run where
  shared : Shared
  installed : ReleaseManifest
  processes : List (Command × List Turn)

namespace Run

variable (P : Platform) (r : Run)

/-- The host before the first process: nothing in the private root. -/
def start : Host := ⟨⟨none, none, []⟩, r.shared, r.installed⟩

/-- What happened, newest first, each event with the host it found. -/
def past : Past Host Event := (runAll P r.processes [] r.start).1

/-- The host at the end. -/
def host : Host := (runAll P r.processes [] r.start).2

/-- The configurations the processes of the run are started with. -/
def Uses (config : Config) : Prop := ∃ process ∈ r.processes, process.1.config = config

/-- **A run is a history of the transition system.** -/
theorem supervised {Configs : Config → Prop} (hin : ∀ config, r.Uses config → Configs config) :
    Supervised P (Loaded P Configs) (r.past P) (r.host P) :=
  supervised_runAll r.processes (fun process hp => hin _ ⟨process, hp, rfl⟩)
    (.start (rfl : Fresh r.start))

/-- The history of a run under its own configurations. -/
theorem supervised_uses : Supervised P (Loaded P r.Uses) (r.past P) (r.host P) :=
  r.supervised P fun _ h => h

end Run

variable {P : Platform} {Configs : Config → Prop} {past : Past Host Event} {h : Host} {e : Event}

/-! ## What reaches the installer -/

/-- The package of an installer call is one the local policy of the calling
process vouches for. -/
def Event.Vouched (P : Platform) (Configs : Config → Prop) (e : Event) : Prop :=
  match e with
  | .installing call => Configs call.config ∧ call.config.Vouches P call.manifest call.bytes
  | _ => True

theorem Permitted.vouched (he : Permitted P Configs past h e) : e.Vouched P Configs := by
  cases he with
  | advance effective inForce vouched rule => exact ⟨inForce, vouched⟩
  | retreat effective inForce vouched rule => exact ⟨inForce, vouched⟩
  | _ => trivial

/-- **Every byte string that reaches the installer, forward or as a rollback,
has the size and digest of a manifest signed under a key of the calling
process's keyring that is present and not revoked**, and the manifest names
this target and the configured package kind. -/
theorem installed_bytes_vouched (P : Platform) (r : Run) :
    Throughout (fun _ _ e => e.Vouched P r.Uses) (r.past P) := by
  refine (r.supervised_uses P).throughout' ?_
  rintro past h e _ - ⟨he, -⟩
  have hv := he.vouched
  cases e with
  | installing call => exact ⟨hv.1.inForce, hv.2⟩
  | _ => trivial

/-! ## What stays in the cache -/

/-- An event leaves the directories the journal on disk names as they are. -/
def Event.Spares (e : Event) (h : Host) : Prop :=
  ∀ r ∈ h.journal.releases, (e.apply h).cache r.directory = h.cache r.directory

/-- **The directories the journal on disk names exist and hold what was
verified when they were stored, in every durable state**, and no event
deletes one or overwrites a file of one while it is named. -/
theorem named_directories_kept (P : Platform) (r : Run) :
    (∀ h ∈ visited (r.past P) (r.host P), h.Cached P) ∧
      Throughout (fun _ h e => e.Spares h) (r.past P) := by
  refine ⟨fun h hh => ?_, (r.supervised_uses P).throughout' ?_⟩
  · obtain ⟨past, hs⟩ := (r.supervised_uses P).of_visited hh
    exact cached_of_supervised hs
  · rintro past h e _ hs ⟨he, -⟩ release hr
    exact he.cache_apply (cached_of_supervised hs) hr

/-! ## A sample platform

Five releases under one key, with their real digests and Ed25519 signatures,
on a platform that knows what they need. The runs that show a condition is
needed, or met, are runs on it.
-/

namespace Sample

/-- A release with a package of one byte. -/
structure Release where
  version : String
  sequence : Nat
  artifact : Bytes
  sha256 : String
  signature : String

def older : Release where
  version := "1.5.0"
  sequence := 3
  artifact := [1]
  sha256 := "4bf5122f344554c53bde2ebb8cd2b7e3d1600ad631c385a5d7cce23c7785459a"
  signature :=
    "2de5e740ad5340320a8d67be1ef000ff651ffd98f35a67f25803c702ebb611ded8f6287778d47ee899d6d7c872dd2d8defee78d4bd535bdced29985d9ebf1e05"

def patched : Release where
  version := "1.6.0"
  sequence := 5
  artifact := [2]
  sha256 := "dbc1b4c900ffe48d575b5da5c638040125f65db0fe3e24494b76ea986457d986"
  signature :=
    "35f5a6b04444210190f67fb2c625f3019a32b6c6cbc2dbc48ef241ef600985d6c28dde2120b6a5073db8ac139c5b1e3461ad20d7c65f4041e954a0a79e046807"

def current : Release where
  version := "2.0.0"
  sequence := 2
  artifact := [3]
  sha256 := "084fed08b978af4d7d196a7446a86b58009e636b611db16211b65a9aadff29c5"
  signature :=
    "546b240ff9093b04bb69eb57ca9bba19f5688bb08616e50bfb33c3c8998b0cd73fcfcfc2c65cd406f0ede9eaa64f3bdf5e80635eddf38046ab01201634a77200"

def better : Release where
  version := "2.5.0"
  sequence := 3
  artifact := [5]
  sha256 := "e77b9a9ae9e30b0dbdb6f510a264ef9de781501d7b6b92ae89eb059c5ab743db"
  signature :=
    "0a767dd0d497862b79f8a9157e2de7138fac59e9d2181e680e15d6798075a5d1b4b9e247da79681e21e87e87a0efa0788909c9dd7f7354998008d6856896e60e"

def newer : Release where
  version := "3.0.0"
  sequence := 4
  artifact := [4]
  sha256 := "e52d9c508c502347344d8c07ad91cbd6068afc75ff6292f062a09ca381c89e71"
  signature :=
    "583a1d0fb669f21b43bc5d50447050fe56a03dc5472016b0970ac58c12bf6c4120a1c4c5c1f057dfcfd8861ab81160b3015976b2fa9fa9a4855357be5aab9208"

def releases : List Release := [older, patched, current, better, newer]

def Release.manifest (r : Release) : ReleaseManifest where
  schema := 1
  keyId := "release"
  version := r.version
  platform := "x86_64-unknown-linux-gnu"
  packageKind := .deb
  sizeBytes := 1
  sha256 := r.sha256
  expiresAt := 2000000000
  sequence := r.sequence

/-- The signed manifest as it is sent. -/
def Release.signed (r : Release) : Bytes :=
  Json.object [("manifest", r.manifest.json), ("signature", Json.str r.signature)]

def publicKey : String := "ea4a6c63e29c520abef5507b132ec5f9954776aebebe7b92421eea691446d22c"

/-- The versions that occur, with their place in the semantic order. -/
def versions : List (String × Nat) :=
  [("0.5.0", 0), ("1.5.0", 1), ("1.6.0", 2), ("2.0.0", 3), ("2.5.0", 4), ("3.0.0", 5)]

def platform : Platform where
  Version := Nat
  order := inferInstance
  semver version := match versions.lookup version with
    | some place => .ok place
    | none => .error "unexpected character while parsing major version number"
  Key := Bytes
  verifyingKey bytes := .ok bytes
  verifyStrict key message signature := releases.any fun r =>
    decodeHex 64 r.signature == .ok signature && r.manifest.canonical == message
      && decodeHex 32 publicKey == .ok key
  sha256 bytes := match releases.find? (fun r => r.artifact == bytes) with
    | some r => r.sha256
    | none => ""
  readSigned bytes := (releases.find? (fun r => r.signed == bytes)).map
    fun r => ⟨r.manifest, r.signature⟩
  targetTriple := "x86_64-unknown-linux-gnu"
  matchesOs kind := kind == .deb || kind == .rpm
  isAbsolute path := (Json.bytes path).head? == some (Json.byte '/')
  cargoPkgVersion := "0.5.0"

/-- A policy that trusts the key, with or without an emergency version. -/
def config (emergencyVersion : Option String) : Config where
  updates := { UpdateConfig.default with
    trustedKeys := [⟨"release", publicKey, false⟩]
    packageKind := some .deb
    emergencyVersion }

def nonce₁ : String := "11111111111111111111111111111111"
def nonce₂ : String := "22222222222222222222222222222222"
def nonce₃ : String := "33333333333333333333333333333333"

/-- A turn in which nothing happens but the effect. -/
def quiet : Turn := ⟨[], 1000, .done, "", 0⟩

/-- A turn whose effect takes place but is reported as failed. -/
def failed : Turn := { quiet with fate := .failed true }

/-- A turn before which the endpoint acts. -/
def after (act : EndpointAct) : Turn := { quiet with acts := [act] }

/-- A turn before which the endpoint replaces its queue by one request. -/
def request (nonce : String) (r : Release) : Turn :=
  after (.rewriteQueue [(nonce, ⟨true, some r.signed, some r.artifact⟩)])

/-- So many quiet turns. -/
def quietly (n : Nat) : List Turn := List.replicate n quiet

def seeding (emergencyVersion : Option String) (r : Release) : Command :=
  .seed (config emergencyVersion) (some r.signed) (some r.artifact)

def supervising (emergencyVersion : Option String) (passes : Nat) : Command :=
  .supervise (config emergencyVersion) passes

/-- Processes on a host with the current release installed. -/
def on (processes : List (Command × List Turn)) : Run where
  shared := ⟨none, none, none, []⟩
  installed := current.manifest
  processes := processes

end Sample

end Lariska
