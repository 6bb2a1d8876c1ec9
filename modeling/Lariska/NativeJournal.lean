import Lariska.UpdateLedger

/-!
# The native journal and the package cache

`native-journal.json` names the active release, the pending one and the
receipts of the request nonces consumed so far; the directories it names
hold the packages themselves. The programs here read and write it, reserve a
nonce durably before anything is installed under it, and copy, check and
prune the package directories.

`remember_consumed_nonce` changes the `journal` variable before it writes
the file, so a failed write leaves the variable ahead of the file. The model
keeps the two apart for that reason.
-/

namespace Lariska

open Prog (lift need ensure attempt guarded)

/-! ## Encodings -/

def CachedRelease.json (r : CachedRelease) : Bytes :=
  Json.object [("manifest", r.manifest.json), ("directory", Json.str r.directory)]

def Pending.json (p : Pending) : Bytes :=
  Json.object [
    ("release", p.release.json),
    ("nonce", Json.str p.nonce),
    ("started_at", Json.nat p.startedAt)]

def ConsumedRequest.json (r : ConsumedRequest) : Bytes :=
  Json.object [
    ("nonce", Json.str r.nonce),
    ("version", Json.str r.version),
    ("sequence", Json.nat r.sequence)]

def Journal.json (j : Journal) : Bytes :=
  Json.object [
    ("active", Json.opt CachedRelease.json j.active),
    ("pending", Json.opt Pending.json j.pending),
    ("consumed", Json.array (j.consumed.map ConsumedRequest.json))]

def maxJournalBytes : Nat := 64 * 1024
def maxRequests : Nat := 200

/-! ## Reading and writing the journal -/

section Journal

variable (P : Platform)

/-- `semver::Version::parse` of a receipt's version. -/
def parseReceiptVersion (version : String) : Except Fault P.Version :=
  match P.semver version with
  | .ok v => .ok v
  | .error e => .error (.detailed "consumed request version: " e)

/-- The loop of `read_journal` over the receipts, with the nonces seen so
far. -/
def checkConsumed (nonces : List String) : List ConsumedRequest → Except Fault Unit
  | [] => .ok ()
  | request :: rest => do
    require (validNonce request.nonce = true ∧ request.nonce ∉ nonces
        ∧ request.version.utf8ByteSize ≤ 128)
      "invalid native consumed request identity"
    discard (parseReceiptVersion P request.version)
    checkConsumed (request.nonce :: nonces) rest

/-- A cache directory is a plain name. -/
def plainDirectory (directory : String) : Bool :=
  !directory.isEmpty && (Json.bytes directory).all (fun b => isAlphanumeric b || b == Json.byte '-')

/-- The releases a journal names. -/
def Journal.releases (j : Journal) : List CachedRelease :=
  j.active.toList ++ (j.pending.map Pending.release).toList

/-- The checks of `read_journal` on a decoded document. -/
def checkJournal (j : Journal) : Except Fault Unit := do
  require (j.json.length ≤ maxJournalBytes) "native journal exceeds size limit"
  require (j.consumed.length ≤ maxRequests)
    "native consumed request history exceeds its hard bound"
  checkConsumed P [] j.consumed
  require (∀ r ∈ j.releases, plainDirectory r.directory = true)
    "invalid cached package directory"

/-- `read_journal`: a missing file reads as the empty journal. -/
def readJournal : Act Journal := do
  let h ← inspect
  match h.root.journal with
  | none => pure Journal.empty
  | some j =>
    lift (checkJournal P j)
    pure j

/-- `write_journal` of the `journal` variable. -/
def writeJournal (why : JournalWrite) : Act Unit := do
  let j ← getJournal
  refuse (j.json.length ≤ maxJournalBytes) "native journal exceeds size limit"
  perform (.wroteJournal why j)

/-! ## Receipts -/

/-- The receipts a floor does not reject, in their order. -/
def retained (floor : P.Version) (floorSequence : Nat) :
    List ConsumedRequest → Except Fault (List ConsumedRequest)
  | [] => .ok []
  | request :: rest =>
    match P.semver request.version with
    | .error e => .error (.os e)
    | .ok candidate => do
      let kept ← retained floor floorSequence rest
      pure (if candidate ≥ floor ∧ request.sequence ≥ floorSequence then request :: kept
        else kept)

/-- The pruning of `remember_consumed_nonce`: the receipts the floor rejects
leave the `journal` variable. -/
def pruneReceipts : Act Unit := do
  let ledger ← readLedger P
  match P.semver ledger.floorVersion with
  | .error e => Prog.fail (.os e)
  | .ok floor =>
    let journal ← getJournal
    let consumed ← lift (retained P floor ledger.floorSequence journal.consumed)
    setJournal { journal with consumed }

/-- `remember_consumed_nonce`. The flag says whether a request is being
accepted under the nonce; it is logged and decides nothing. -/
def rememberConsumedNonce (config : Config) (accepting : Bool) (receipt : ConsumedRequest) :
    Act Unit := do
  refuse (validNonce receipt.nonce = true ∧ receipt.version.utf8ByteSize ≤ 128)
    "invalid native consumed request identity"
  lift (discard (parseReceiptVersion P receipt.version))
  let journal ← getJournal
  match journal.consumed.find? (fun r => r.nonce == receipt.nonce) with
  | some previous =>
    refuse (previous.version = receipt.version ∧ previous.sequence = receipt.sequence)
      "consumed native request nonce changed its release identity"
  | none =>
    if config.updates.emergencyVersion = none then pruneReceipts P else pure ()
    let journal ← getJournal
    refuse (journal.consumed.length < maxRequests)
      "native consumed request history is full; administrator repair is required before accepting another update"
    setJournal { journal with consumed := journal.consumed ++ [receipt] }
    writeJournal (.reserve config accepting receipt)

end Journal

/-! ## Package directories -/

/-- `copy_bounded`: what has been copied when the input turns out too long is
left behind for the caller to remove. -/
def copyBounded (source : Host → Option Bytes) (dest : String) (file : CacheFile)
    (limit : Nat) : Act Unit := do
  let h ← inspect
  let bytes ← need (source h) (.text "update input must be a regular file")
  happen (.filled dest file (bytes.take (limit + 1)))
  refuse (bytes.length ≤ limit) "update input exceeds size limit"
  let _ ← step

def removeDir (name : String) : Act Unit := perform (.removedDir name)

/-- `copy_request`: an existing directory is not touched. -/
def copyRequest (manifest artifact : Host → Option Bytes) (dest : String) (maxBytes : Nat) :
    Act Unit := do
  let h ← inspect
  refuse (h.cache dest = none) "private staging: File exists"
  happen (.madeDir dest)
  guarded (removeDir dest) (do
    copyBounded manifest dest .manifest maxJournalBytes
    copyBounded artifact dest .artifact maxBytes
    let _ ← step)

/-- Whether a journal names a directory. -/
def Journal.names (j : Journal) (name : String) : Bool :=
  j.releases.any (fun r => r.directory == name)

/-- The directory names `prune_cache` takes for its own. -/
def cacheName (name : String) : Bool :=
  (Json.bytes "seed-").isPrefixOf (Json.bytes name)
    || (name.utf8ByteSize == 32 && (Json.bytes name).all isHexDigit)

/-- The loop of `prune_cache` over the directories found. -/
def pruneEntries (journal : Journal) : List String → Act Unit
  | [] => pure ()
  | name :: names => do
    let _ ← step
    if journal.names name = false ∧ cacheName name = true then removeDir name else pure ()
    pruneEntries journal names

/-- `prune_cache`. -/
def pruneCache : Act Unit := do
  let h ← inspect
  let journal ← getJournal
  pruneEntries journal (h.root.caches.map Prod.fst)

end Lariska
