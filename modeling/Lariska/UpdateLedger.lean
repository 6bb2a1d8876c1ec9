import Lariska.Host

/-!
# The update ledger and the verification of files

The protected ledger is `update-state.json` in the private root: the
anti-rollback floor, the pending transaction and the bounded history. The
programs here read it, commit a transaction to it, arm the health window and
record how the transaction ended; with them come the verification of a
cached package, which reads the floor, and the health mailbox.
-/

namespace Lariska

open Prog (lift need ensure attempt)

/-! ## Encodings -/

def PendingUpdate.json (p : PendingUpdate) : Bytes :=
  Json.object [
    ("nonce", Json.str p.nonce),
    ("version", Json.str p.version),
    ("sequence", Json.nat p.sequence),
    ("started_at", Json.nat p.startedAt),
    ("deadline", Json.nat p.deadline)]

def HistoryEntry.json (r : HistoryEntry) : Bytes :=
  Json.object [
    ("nonce", Json.str r.nonce),
    ("version", Json.str r.version),
    ("sequence", Json.nat r.sequence),
    ("at", Json.nat r.recordedAt),
    ("outcome", Json.str r.outcome),
    ("reason", Json.str r.reason)]

def UpdateLedger.json (l : UpdateLedger) : Bytes :=
  Json.object [
    ("floor_version", Json.str l.floorVersion),
    ("floor_sequence", Json.nat l.floorSequence),
    ("pending", Json.opt PendingUpdate.json l.pending),
    ("history", Json.array (l.history.map HistoryEntry.json))]

def maxManifestBytes : Nat := 16 * 1024
def maxLedgerBytes : Nat := 256 * 1024

/-- `u64::checked_add`. -/
def checkedAdd (a b : Nat) : Option Nat := if a + b < 2 ^ 64 then some (a + b) else none

/-! ## Reading the ledger -/

section Ledger

variable (P : Platform)

/-- The checks of `read_ledger` on a decoded document. -/
def checkLedger (ledger : UpdateLedger) : Except Fault Unit := do
  require (ledger.json.length ≤ maxLedgerBytes)
    "update-state.json is not a regular bounded JSON file"
  discard (parseVersion P ledger.floorVersion)
  require (ledger.history.length ≤ 100) "update history exceeds its hard bound"
  require (∀ r ∈ ledger.history, r.nonce = "" ∨ validNonce r.nonce = true)
    "transaction nonce must contain 32 lowercase hex characters"

/-- `read_ledger`: a missing file reads as the initial ledger. -/
def readLedger : Act UpdateLedger := do
  let h ← inspect
  match h.root.ledger with
  | none => pure (UpdateLedger.initial P)
  | some ledger =>
    lift (checkLedger P ledger)
    pure ledger

/-! ## Verification of a cached package -/

/-- `verify_manifest_inner`. In recovery the expiry is not looked at. -/
def verifyManifestInner (config : Config) (signed : SignedManifest) (recovery : Bool) :
    Act Unit := do
  lift (verifyShape P config signed)
  if recovery then pure ()
  else
    let now ← unixNow
    refuse (now < signed.manifest.expiresAt) "signed update manifest has expired"
  lift (verifySignature P config signed)

/-- The emergency override admits a release of exactly this version. -/
def Config.admits (config : Config) (version : String) : Bool :=
  config.updates.emergencyVersion == some version

/-- `verify_manifest`: the anti-rollback floor, and no transaction pending. -/
def verifyManifest (config : Config) (signed : SignedManifest) : Act Unit := do
  verifyManifestInner P config signed false
  let ledger ← readLedger P
  let floor ← lift (parseVersion P ledger.floorVersion)
  let candidate ← lift (parseVersion P signed.manifest.version)
  refuse (config.admits signed.manifest.version = true
      ∨ ¬ (candidate < floor ∨ signed.manifest.sequence < ledger.floorSequence))
    (.detailed "anti-rollback floor rejects " (signed.manifest.version ++ " sequence "
      ++ toString signed.manifest.sequence ++ " (floor " ++ ledger.floorVersion
      ++ " sequence " ++ toString ledger.floorSequence ++ ")"))
  refuse (ledger.pending = none) "an update transaction is already pending"

/-- `read_json` at the manifest of a cache directory. -/
def readManifest (directory : String) : Act SignedManifest := do
  let h ← inspect
  let bytes ← need ((h.cache directory).bind CacheDir.manifest) (.os "no such file")
  refuse (bytes.length ≤ maxManifestBytes) "manifest.json is not a regular bounded JSON file"
  need (P.readSigned bytes) (.os "invalid manifest document")

/-- `verify_artifact`: the file's length is looked at before its bytes are. -/
def verifyArtifact (config : Config) (signed : SignedManifest) (directory : String) :
    Act Unit := do
  refuse (signed.manifest.sizeBytes ≤ config.updates.maxDownloadBytes
      ∧ signed.manifest.sizeBytes ≤ hardMaxDownloadBytes)
    "package exceeds local size limit"
  let metadata ← inspect
  let found ← need ((metadata.cache directory).bind CacheDir.artifact) (.os "no such file")
  refuse (found.length = signed.manifest.sizeBytes)
    "package is not a regular file of the signed size"
  let h ← inspect
  let bytes ← need ((h.cache directory).bind CacheDir.artifact) (.os "no such file")
  refuse (bytes.length ≤ signed.manifest.sizeBytes)
    "package grew beyond signed size while verifying"
  refuse (bytes.length = signed.manifest.sizeBytes
      ∧ P.sha256 bytes = signed.manifest.sha256)
    "package size or SHA-256 does not match signed manifest"

/-- `verify_files`. -/
def verifyFiles (config : Config) (directory : String) : Act ReleaseManifest := do
  let signed ← readManifest P directory
  verifyManifest P config signed
  verifyArtifact P config signed directory
  pure signed.manifest

/-- `verify_files_for_recovery`: neither the floor nor the expiry count. -/
def verifyFilesForRecovery (config : Config) (directory : String) : Act ReleaseManifest := do
  let signed ← readManifest P directory
  verifyManifestInner P config signed true
  verifyArtifact P config signed directory
  pure signed.manifest

/-! ## The transaction -/

/-- `publish_pending_health`: the previous acknowledgement goes first. -/
def publishPendingHealth (pending : PendingUpdate) : Act Unit := do
  let _ ← step
  perform (.wroteMailbox .removeHealth)
  perform (.wroteMailbox (.publishPending pending))

/-- The ledger with a transaction pending. -/
def UpdateLedger.awaiting (ledger : UpdateLedger) (pending : PendingUpdate) : UpdateLedger :=
  { ledger with pending := some pending }

/-- `commit_pending`. -/
def commitPending (config : Config) (manifest : ReleaseManifest) (nonce : String) :
    Act Unit := do
  lift (validateNonce nonce)
  let ledger ← readLedger P
  refuse (ledger.pending = none) "update already pending"
  let now ← unixNow
  let deadline ← need (checkedAdd now config.updates.healthTimeoutSecs)
    (.text "deadline overflow")
  let pending : PendingUpdate := ⟨nonce, manifest.version, manifest.sequence, now, deadline⟩
  let _ ← step
  perform (.wroteLedger (.commit config pending) (ledger.awaiting pending))
  publishPendingHealth pending

/-- `arm_health`: the health window starts now. -/
def armHealth (config : Config) (nonce : String) : Act PendingUpdate := do
  lift (validateNonce nonce)
  let ledger ← readLedger P
  let pending ← need ledger.pending (.text "no update is pending")
  refuse (pending.nonce = nonce) "update transaction nonce mismatch"
  let now ← unixNow
  let deadline ← need (checkedAdd now config.updates.healthTimeoutSecs)
    (.text "health deadline overflow")
  let armed : PendingUpdate := { pending with startedAt := now, deadline }
  perform (.wroteLedger .arm (ledger.awaiting armed))
  publishPendingHealth armed
  pure armed

/-- Runs a cleanup whose failure nobody looks at. -/
def ignore (m : Act Unit) : Act Unit := do
  let _ ← attempt m
  pure ()

/-- `health_status_for_pending`: a missing or unreadable mailbox is
unhealthy, and the clock is read only for an acknowledgement that satisfies
the window. -/
def healthStatusForPending (pending : PendingUpdate) : Act Bool := do
  lift (validateNonce pending.nonce)
  match ← attempt (step *> inspect) with
  | .error _ => pure false
  | .ok h =>
    match h.shared.health with
    | none => pure false
    | some ack =>
      happen (.sawHealth ack)
      if ack.accepts pending then
        let now ← unixNow
        pure (decide (ack.ackedAt ≤ now))
      else pure false

/-- The history with a record added, the oldest ones dropped beyond the
configured limit. -/
def appendHistory (limit : Nat) (history : List HistoryEntry) (record : HistoryEntry) :
    List HistoryEntry :=
  (history ++ [record]).drop ((history ++ [record]).length - limit)

/-- The floor after a healthy transaction. -/
def raiseFloor (ledger : UpdateLedger) (version : String) (sequence : Nat) :
    Except Fault UpdateLedger := do
  let candidate ← parseVersion P version
  let floor ← parseVersion P ledger.floorVersion
  pure { ledger with
    floorVersion := if candidate > floor then version else ledger.floorVersion
    floorSequence := max ledger.floorSequence sequence }

/-- The outcome a finished transaction is recorded with. -/
def outcomeOf (healthy : Bool) : String := if healthy then "healthy" else "rolled_back"

/-- The record of a finished transaction. -/
def PendingUpdate.record (pending : PendingUpdate) (now : Nat) (healthy : Bool)
    (reason : String) : HistoryEntry where
  nonce := pending.nonce
  version := pending.version
  sequence := pending.sequence
  recordedAt := now
  outcome := outcomeOf healthy
  reason := String.ofList (reason.toList.take 1024)

/-- The ledger with its pending transaction recorded and gone. -/
def UpdateLedger.close (ledger : UpdateLedger) (limit : Nat) (record : HistoryEntry) :
    UpdateLedger :=
  { ledger with pending := none, history := appendHistory limit ledger.history record }

/-- `finish_update`. -/
def finishUpdate (config : Config) (nonce : String) (healthy : Bool) (reason : String) :
    Act Unit := do
  lift (validateNonce nonce)
  let ledger ← readLedger P
  let pending ← need ledger.pending (.text "no update is pending")
  refuse (pending.nonce = nonce) "update transaction nonce mismatch"
  let now ← unixNow
  let record := pending.record now healthy reason
  let raised ← lift (if healthy then raiseFloor P ledger pending.version pending.sequence
    else .ok ledger)
  perform (.wroteLedger (.record config record)
    (raised.close config.updates.historyLimit record))
  ignore (do
    let _ ← step
    ignore (perform (.wroteMailbox .removePending))
    ignore (perform (.wroteMailbox .removeHealth)))

/-- `ack_request`. -/
def ackRequest (nonce outcome : String) : Act Unit := do
  lift (validateNonce nonce)
  refuse (outcome = "accepted" ∨ outcome = "refused") "invalid native request result"
  let _ ← step
  let now ← unixNow
  perform (.wroteMailbox (.publishResult ⟨nonce, outcome, now⟩))

end Ledger

end Lariska
