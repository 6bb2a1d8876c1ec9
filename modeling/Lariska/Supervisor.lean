import Lariska.NativeJournal

/-!
# The privileged supervisor

The four operations of the supervisor – accepting a request, recovering or
acknowledging a pending transaction, rolling one back, and seeding the
rollback cache – and the loop that calls them. Each is written in the order
of its source, one effect a line, since it is the order of the effects that
a crash exposes.

A `Command` is one process: a seeding, or a supervisor that goes round its
loop a number of times. Processes follow one another on the same host – they
hold its lock – and each is given the script of its turns. `runAll` is a
sequence of them, each ended by returning or by being killed.
-/

namespace Lariska

open Prog (lift need ensure attempt guarded)

variable (P : Platform)

/-! ## The installer -/

/-- Hands the artifact of a cache directory to the installer. -/
def install (site : Site) (config : Config) (manifest : ReleaseManifest)
    (directory : String) : Act Unit := do
  let t ← turn
  let w ← Prog.get
  let bytes ← need ((w.host.cache directory).bind CacheDir.artifact) (.os "no such file")
  match t.fate with
  | .failed effective =>
    happen (.installing ⟨site, config, manifest, bytes, effective⟩)
    Prog.fail (.os t.detail)
  | _ => happen (.installing ⟨site, config, manifest, bytes, true⟩)

/-- Restarts the endpoint. -/
def restart : Act Unit := do
  let t ← turn
  happen .restarting
  match t.fate with
  | .failed _ => Prog.fail (.os t.detail)
  | _ => pure ()

/-- The native signature check of a package. -/
def verifySignatureNative : Act Unit := do
  let _ ← step

/-! ## Rolling back -/

/-- `rollback_with`. -/
def rollbackWith (config : Config) (reason : String) : Act Unit := do
  let journal ← getJournal
  let pending ← need journal.pending (.text "no pending update to roll back")
  let previous ← need journal.active (.text "missing previous native package")
  let manifest ← verifyFilesForRecovery P config previous.directory
  verifySignatureNative
  install (.rollback pending.nonce) config manifest previous.directory
  restart
  finishUpdate P config pending.nonce false reason
  setJournal { journal with pending := none }
  writeJournal .settle
  pruneCache

/-! ## Accepting a request -/

/-- A release that failed its health window: rolled back for a reason other
than an interruption before the installation. -/
def HistoryEntry.failed (r : HistoryEntry) : Bool :=
  r.outcome == "rolled_back" && r.reason != "interrupted_before_install"

/-- The history refuses a release. -/
def UpdateLedger.refuses (l : UpdateLedger) (m : ReleaseManifest) : Bool :=
  l.history.any (fun r => r.failed && r.version == m.version && r.sequence == m.sequence)

/-- The file of a request in the endpoint's queue. -/
def requestFile (nonce : String) (file : Request → Option Bytes) (h : Host) : Option Bytes :=
  (h.shared.incoming.lookup nonce).bind file

/-- `accept_request_with` under its cleanup guard: from the verification of
the private copy to the journal entry that makes it recoverable. -/
def enlistRequest (config : Config) (nonce : String) (previous : CachedRelease) :
    Act ReleaseManifest := do
  let manifest ← verifyFiles P config nonce
  refuse (manifest.version ≠ previous.manifest.version)
    "the requested version is already installed"
  if config.admits manifest.version then pure ()
  else
    let ledger ← readLedger P
    refuse (ledger.refuses manifest = false) "the requested release was already rolled back"
  verifySignatureNative
  rememberConsumedNonce P config true (manifest.receipt nonce)
  commitPending P config manifest nonce
  let started ← clockNow
  let journal ← getJournal
  let pending : Pending := ⟨⟨manifest, nonce⟩, nonce, started⟩
  setJournal { journal with pending := some pending }
  writeJournal (.enlist pending)
  pure manifest

/-- `accept_request_with`, the installation proper. -/
def installRequest (config : Config) (nonce : String) (manifest : ReleaseManifest) :
    Act Unit := do
  install (.forward nonce) config manifest nonce
  let armed ← armHealth P config nonce
  let journal ← getJournal
  setJournal { journal with
    pending := journal.pending.map (fun p => { p with startedAt := armed.startedAt }) }
  writeJournal .rearm
  restart

/-- `accept_request_with`. -/
def acceptRequestWith (config : Config) (nonce : String) : Act Unit := do
  refuse (validNonce nonce = true) "invalid request nonce"
  let journal ← getJournal
  refuse (∀ r ∈ journal.consumed, r.nonce ≠ nonce)
    "native request nonce was already consumed"
  let previous ← need journal.active
    (.text "seed the current signed package before enabling native updates")
  let _ ← verifyFilesForRecovery P config previous.directory
  copyRequest (requestFile nonce Request.manifest) (requestFile nonce Request.artifact)
    nonce config.updates.maxDownloadBytes
  let manifest ← guarded (removeDir nonce) (enlistRequest P config nonce previous)
  ackRequest nonce "accepted"
  match ← attempt (installRequest P config nonce manifest) with
  | .ok _ => pure ()
  | .error fault =>
    rollbackWith P config ("native_install_failed: " ++ fault.message)
    Prog.fail fault

/-! ## Recovering -/

/-- The journal after a finished transaction: a healthy one is promoted. -/
def Journal.settled (j : Journal) (outcome : String) (release : CachedRelease) : Journal :=
  { j with
    active := if outcome = "healthy" then some release else j.active
    pending := none }

/-- `recover_or_ack_with` when only the journal still names a transaction. -/
def completeFinished (config : Config) (ledger : UpdateLedger) (pending : Pending) :
    Act Unit := do
  match ledger.history.getLast? with
  | none => Prog.fail (.text "native update journal disagrees with protected ledger")
  | some last =>
    if last.version = pending.release.manifest.version
        ∧ last.sequence = pending.release.manifest.sequence then
      refuse (last.nonce = pending.nonce)
        "protected completed transaction nonce is missing or disagrees with the native journal; administrator repair is required"
      rememberConsumedNonce P config false pending.receipt
      let journal ← getJournal
      setJournal (journal.settled last.outcome pending.release)
      writeJournal .settle
      pruneCache
    else Prog.fail (.text "native update journal disagrees with protected ledger")

/-- `recover_or_ack_with` when the journal and the ledger both name a
transaction. -/
def superviseHealth (config : Config) (pending : Pending) (authoritative : PendingUpdate) :
    Act Unit := do
  refuse (authoritative.nonce = pending.nonce
      ∧ authoritative.version = pending.release.manifest.version
      ∧ authoritative.sequence = pending.release.manifest.sequence)
    "protected transaction identities disagree"
  rememberConsumedNonce P config false pending.receipt
  match ← attempt (healthStatusForPending authoritative) with
  | .ok true =>
    finishUpdate P config pending.nonce true "healthy_heartbeat"
    let journal ← getJournal
    setJournal (journal.settled "healthy" pending.release)
    writeJournal .settle
    pruneCache
  | _ =>
    let now ← clockNow
    if now ≥ authoritative.deadline then
      rollbackWith P config "healthy_heartbeat_timeout"
    else pure ()

/-- `recover_or_ack_with`. -/
def recoverOrAckWith (config : Config) : Act Unit := do
  let ledger ← readLedger P
  let journal ← getJournal
  match journal.pending, ledger.pending with
  | none, none => pure ()
  | none, some interrupted =>
    rememberConsumedNonce P config false interrupted.receipt
    finishUpdate P config interrupted.nonce false "interrupted_before_install"
  | some pending, none => completeFinished P config ledger pending
  | some pending, some authoritative => superviseHealth P config pending authoritative

/-! ## Seeding -/

/-- `installed_agent_version`. -/
def installedAgentVersion : Act String := do
  let h ← inspect
  pure h.installed.version

/-- The ledger with its floor raised to a seeded release. -/
def seedFloor (ledger : UpdateLedger) (manifest : ReleaseManifest) :
    Except Fault UpdateLedger :=
  match P.semver manifest.version, P.semver ledger.floorVersion with
  | .error e, _ => .error (.os e)
  | _, .error e => .error (.os e)
  | .ok candidate, .ok floor => .ok { ledger with
      floorVersion := if candidate > floor then manifest.version else ledger.floorVersion
      floorSequence := max ledger.floorSequence manifest.sequence }

/-- `seed` under its cleanup guard. -/
def activateSeed (config : Config) (directory : String) : Act Unit := do
  let verified ← verifyFiles P config directory
  let installed ← installedAgentVersion
  if verified.version ≠ installed then
    ignore (removeDir directory)
    Prog.fail (.text "rollback seed must match the installed agent version")
  else
    verifySignatureNative
    let ledger ← readLedger P
    let raised ← lift (seedFloor P ledger verified)
    perform (.wroteLedger (.raise verified) raised)
    let journal ← getJournal
    setJournal { journal with active := some ⟨verified, directory⟩ }
    writeJournal (.activate ⟨verified, directory⟩)

/-- `seed`, of the package the administrator names. -/
def seed (config : Config) (manifest artifact : Option Bytes) : Act Unit := do
  let _ ← step
  let journal ← readJournal P
  setJournal journal
  refuse (journal.pending = none)
    "cannot replace rollback cache during a pending update"
  match journal.active with
  | some active =>
    if validNonce active.directory = true then
      rememberConsumedNonce P config false (active.manifest.receipt active.directory)
    else pure ()
  | none => pure ()
  let t ← turn
  let directory := "seed-" ++ toString t.random
  copyRequest (fun _ => manifest) (fun _ => artifact) directory config.updates.maxDownloadBytes
  guarded (removeDir directory) (activateSeed P config directory)
  pruneCache

/-! ## The loop -/

/-- `incoming_requests`: the ready directories of the queue, in order. -/
def incomingRequests : Act (List String) := do
  let h ← inspect
  pure (((h.shared.incoming.take maxRequests).filter (fun e => e.2.ready)).map Prod.fst
    |>.insertionSort (fun a b => a ≤ b))

/-- The requests already examined, with one more: those that are gone leave
the set, and so does the first when it is full. -/
def examine (h : Host) (examined : List String) (entry : String) : List String :=
  let present := examined.filter (fun r => (h.shared.incoming.lookup r).isSome)
  let room := if present.length ≥ maxRequests then present.tail else present
  room.orderedInsert (fun a b => a ≤ b) entry

/-- The inner loop of `supervise`. -/
def acceptAll (config : Config) : List String → List String → Act (List String)
  | examined, [] => pure examined
  | examined, entry :: rest =>
    if entry ∈ examined then acceptAll config examined rest
    else do
      let w ← Prog.get
      let examined := examine w.host examined entry
      match ← attempt (acceptRequestWith P config entry) with
      | .ok _ => pure ()
      | .error _ => ignore (ackRequest entry "refused")
      let journal ← getJournal
      if journal.pending ≠ none then pure examined
      else acceptAll config examined rest

/-- The loop body of `supervise`. -/
def supervisePass (config : Config) (examined : List String) : Act (List String) := do
  happen .passStarted
  let journal ← readJournal P
  setJournal journal
  recoverOrAckWith P config
  pruneCache
  let journal ← getJournal
  if journal.pending ≠ none then pure examined
  else
    let entries ← incomingRequests
    acceptAll P config examined entries

/-- So many rounds of the loop of `supervise`. -/
def supervise (config : Config) : Nat → List String → Act Unit
  | 0, _ => pure ()
  | passes + 1, examined => do
    let examined ← supervisePass P config examined
    supervise config passes examined

/-! ## Processes -/

/-- One process of the updater. -/
inductive Command where
  | seed (config : Config) (manifest artifact : Option Bytes)
  | supervise (config : Config) (passes : Nat)

def Command.config : Command → Config
  | .seed config _ _ => config
  | .supervise config _ => config

/-- The program of a process. Loading the configuration validates it. -/
def Command.program (command : Command) : Act Unit := do
  lift (command.config.updates.validate P)
  match command with
  | .seed config manifest artifact => Lariska.seed P config manifest artifact
  | .supervise config passes => do
    let _ ← step
    Lariska.supervise P config passes []

/-- Runs a process to its end on a host with its past. -/
def launch (command : Command) (script : List Turn) (past : Past Host Event) (h : Host) :
    Past Host Event × Host :=
  let w := (command.program P ⟨h, Journal.empty, script, past⟩).2
  (w.trace, w.host)

/-- Runs one process after the other. -/
def runAll : List (Command × List Turn) → Past Host Event → Host → Past Host Event × Host
  | [], past, h => (past, h)
  | (command, script) :: rest, past, h =>
    runAll rest (launch P command script past h).1 (launch P command script past h).2

/-- A host the supervisor has not run on yet. -/
def Fresh (h : Host) : Prop := h.root = ⟨none, none, []⟩

end Lariska
