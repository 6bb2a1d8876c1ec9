import Lariska.ReleaseManifest
import Lariska.History

/-!
# The host of the update supervisor

What the privileged supervisor works on: its private root, with the native
journal, the update ledger and the package caches; the mailbox and request
queue it shares with the endpoint; and the package the host has installed
last.

Every effect of the supervisor takes one `Turn` of a script. A turn says
what the endpoint did to the shared directory just before, what the clock
shows, and how the effect ends – done, failed, or the process killed there –
so a script is one interleaving of the supervisor with its environment, and
a run that outlives its script is killed where the script ends. The effects
themselves, with the host each found, are logged in the trace.
-/

namespace Lariska

/-! ## Documents -/

structure PendingUpdate where
  nonce : String
  version : String
  sequence : Nat
  startedAt : Nat
  deadline : Nat
deriving DecidableEq

structure HistoryEntry where
  nonce : String
  version : String
  sequence : Nat
  recordedAt : Nat
  outcome : String
  reason : String
deriving DecidableEq

/-- `update-state.json`: the protected ledger. -/
structure UpdateLedger where
  floorVersion : String
  floorSequence : Nat
  pending : Option PendingUpdate
  history : List HistoryEntry
deriving DecidableEq

structure CachedRelease where
  manifest : ReleaseManifest
  directory : String
deriving DecidableEq

structure Pending where
  release : CachedRelease
  nonce : String
  startedAt : Nat
deriving DecidableEq

/-- A receipt: the identity a request nonce was consumed for. -/
structure ConsumedRequest where
  nonce : String
  version : String
  sequence : Nat
deriving DecidableEq

/-- `native-journal.json`. -/
structure Journal where
  active : Option CachedRelease
  pending : Option Pending
  consumed : List ConsumedRequest
deriving DecidableEq

structure HealthAck where
  nonce : String
  version : String
  ackedAt : Nat
deriving DecidableEq

structure RequestResult where
  nonce : String
  outcome : String
  recordedAt : Nat
deriving DecidableEq

/-- `Journal::default`. -/
def Journal.empty : Journal := ⟨none, none, []⟩

/-- `UpdateLedger::default`. -/
def UpdateLedger.initial (P : Platform) : UpdateLedger := ⟨P.cargoPkgVersion, 0, none, []⟩

/-- The receipt a manifest leaves under a nonce. -/
def ReleaseManifest.receipt (m : ReleaseManifest) (nonce : String) : ConsumedRequest :=
  ⟨nonce, m.version, m.sequence⟩

def PendingUpdate.receipt (p : PendingUpdate) : ConsumedRequest :=
  ⟨p.nonce, p.version, p.sequence⟩

def Pending.receipt (p : Pending) : ConsumedRequest := p.release.manifest.receipt p.nonce

def HistoryEntry.receipt (r : HistoryEntry) : ConsumedRequest :=
  ⟨r.nonce, r.version, r.sequence⟩

/-! ## The private root and the shared directory -/

/-- A package directory under the private root. -/
structure CacheDir where
  manifest : Option Bytes
  artifact : Option Bytes

/-- A request directory of the endpoint's queue. -/
structure Request where
  ready : Bool
  manifest : Option Bytes
  artifact : Option Bytes

structure Root where
  journal : Option Journal
  ledger : Option UpdateLedger
  caches : List (String × CacheDir)

/-- The endpoint's state directory: the mailbox `update/` and the queue
`update/incoming/`. -/
structure Shared where
  pendingHealth : Option PendingUpdate
  health : Option HealthAck
  result : Option RequestResult
  incoming : List (String × Request)

structure Host where
  root : Root
  shared : Shared
  /-- The release whose package was installed last. -/
  installed : ReleaseManifest

/-- The journal on disk. -/
def Host.journal (h : Host) : Journal := h.root.journal.getD Journal.empty

/-- The ledger on disk. -/
def Host.ledger (P : Platform) (h : Host) : UpdateLedger :=
  h.root.ledger.getD (UpdateLedger.initial P)

/-- The contents of a cache directory. -/
def Host.cache (h : Host) (name : String) : Option CacheDir := h.root.caches.lookup name

def Host.setJournal (h : Host) (j : Journal) : Host :=
  { h with root := { h.root with journal := some j } }

def Host.setLedger (h : Host) (l : UpdateLedger) : Host :=
  { h with root := { h.root with ledger := some l } }

def Host.setCaches (h : Host) (caches : List (String × CacheDir)) : Host :=
  { h with root := { h.root with caches } }

/-- `fs::create_dir` under the private root. -/
def Host.makeDir (h : Host) (name : String) : Host :=
  h.setCaches ((name, ⟨none, none⟩) :: h.root.caches)

inductive CacheFile where
  | manifest | artifact

def CacheDir.fill (d : CacheDir) (bytes : Bytes) : CacheFile → CacheDir
  | .manifest => { d with manifest := some bytes }
  | .artifact => { d with artifact := some bytes }

/-- Writes one file of a cache directory. -/
def Host.fill (h : Host) (name : String) (file : CacheFile) (bytes : Bytes) : Host :=
  h.setCaches (h.root.caches.map
    (fun e => if e.1 = name then (e.1, e.2.fill bytes file) else e))

/-- `fs::remove_dir_all` under the private root. -/
def Host.removeDir (h : Host) (name : String) : Host :=
  h.setCaches (h.root.caches.filter (fun e => e.1 ≠ name))

/-! ## The endpoint -/

/-- **When an acknowledgement satisfies a health window**, but for the
comparison with the clock of the reader. -/
def HealthAck.accepts (a : HealthAck) (p : PendingUpdate) : Bool :=
  a.nonce == p.nonce && a.version == p.version && p.startedAt ≤ a.ackedAt
    && a.ackedAt ≤ p.deadline

/-- `ack_health` of an endpoint of version `running` at time `now`. -/
def Shared.ackHealth (s : Shared) (running : String) (now : Nat) : Shared :=
  match s.pendingHealth with
  | none => s
  | some pending =>
    if validNonce pending.nonce = false then s
    else if pending.version ≠ running ∨ now < pending.startedAt ∨ now > pending.deadline then s
    else { s with health := some ⟨pending.nonce, pending.version, now⟩ }

/-- What the endpoint does between two effects of the supervisor. -/
inductive EndpointAct where
  /-- The running endpoint calls `ack_health`. -/
  | ackHealth
  /-- The queue is rewritten. -/
  | rewriteQueue (incoming : List (String × Request))
  /-- The mailbox files are rewritten. -/
  | rewriteMailbox (pendingHealth : Option PendingUpdate) (health : Option HealthAck)
      (result : Option RequestResult)

def EndpointAct.apply (act : EndpointAct) (now : Nat) (h : Host) : Host :=
  { h with shared := match act with
    | .ackHealth => h.shared.ackHealth h.installed.version now
    | .rewriteQueue incoming => { h.shared with incoming }
    | .rewriteMailbox pendingHealth health result =>
      { h.shared with pendingHealth, health, result } }

@[simp] theorem EndpointAct.apply_root (act : EndpointAct) (now : Nat) (h : Host) :
    (act.apply now h).root = h.root := rfl

@[simp] theorem EndpointAct.apply_installed (act : EndpointAct) (now : Nat) (h : Host) :
    (act.apply now h).installed = h.installed := rfl

/-! ## Events -/

/-- Which call site hands a package to the installer. -/
inductive Site where
  /-- `accept_request_with`, for the request of this nonce. -/
  | forward (nonce : String)
  /-- `rollback_with`, for the transaction of this nonce. -/
  | rollback (nonce : String)

/-- A call of the package installer. -/
structure InstallCall where
  site : Site
  /-- The configuration of the calling process. -/
  config : Config
  manifest : ReleaseManifest
  bytes : Bytes
  /-- Whether the package was installed, whatever the call reports. -/
  effective : Bool

/-- Why the journal is written. -/
inductive JournalWrite where
  /-- `remember_consumed_nonce`, called while accepting a request or not. -/
  | reserve (config : Config) (accepting : Bool) (receipt : ConsumedRequest)
  /-- `accept_request_with`, before the installation. -/
  | enlist (pending : Pending)
  /-- `accept_request_with`, after `arm_health`. -/
  | rearm
  /-- A transaction the ledger has finished leaves the journal. -/
  | settle
  /-- `seed`. -/
  | activate (release : CachedRelease)

/-- Why the ledger is written. -/
inductive LedgerWrite where
  | commit (config : Config) (pending : PendingUpdate)
  | arm
  | record (config : Config) (entry : HistoryEntry)
  /-- `seed` raises the floor to the seeded release. -/
  | raise (release : ReleaseManifest)

/-- What the supervisor does to the mailbox. -/
inductive MailboxWrite where
  | removeHealth
  | publishPending (pending : PendingUpdate)
  | removePending
  | publishResult (result : RequestResult)

inductive Event where
  | endpoint (now : Nat) (act : EndpointAct)
  /-- `supervise` enters its loop body and reads the journal. -/
  | passStarted
  /-- `health_status_for_pending` reads `health.json`. -/
  | sawHealth (ack : HealthAck)
  | wroteJournal (why : JournalWrite) (journal : Journal)
  | wroteLedger (why : LedgerWrite) (ledger : UpdateLedger)
  | wroteMailbox (write : MailboxWrite)
  | madeDir (name : String)
  | filled (name : String) (file : CacheFile) (bytes : Bytes)
  | removedDir (name : String)
  | installing (call : InstallCall)
  | restarting

def MailboxWrite.apply (write : MailboxWrite) (s : Shared) : Shared :=
  match write with
  | .removeHealth => { s with health := none }
  | .publishPending pending => { s with pendingHealth := some pending }
  | .removePending => { s with pendingHealth := none }
  | .publishResult result => { s with result := some result }

/-- **What an event does to the host.** -/
def Event.apply (e : Event) (h : Host) : Host :=
  match e with
  | .endpoint now act => act.apply now h
  | .passStarted => h
  | .sawHealth _ => h
  | .wroteJournal _ j => h.setJournal j
  | .wroteLedger _ l => h.setLedger l
  | .wroteMailbox write => { h with shared := write.apply h.shared }
  | .madeDir name => h.makeDir name
  | .filled name file bytes => h.fill name file bytes
  | .removedDir name => h.removeDir name
  | .installing call => if call.effective then { h with installed := call.manifest } else h
  | .restarting => h

/-! ## Turns and effects -/

/-- How an effect ends. A failed call may have taken effect all the same;
only the installer reads that flag. -/
inductive Fate where
  | done
  | failed (effective : Bool)
  | killed

structure Turn where
  /-- What the endpoint does first. -/
  acts : List EndpointAct
  /-- The clock, in seconds since the epoch. -/
  now : Nat
  fate : Fate
  /-- The text of the system error, when there is one. -/
  detail : String
  /-- A random number, where one is drawn. -/
  random : Nat

structure World where
  host : Host
  /-- The `journal` variable of the running process. -/
  journal : Journal
  script : List Turn
  trace : Past Host Event

/-- A supervisor program. -/
abbrev Act (α : Type) : Type := Prog World Fault α

/-- Logs an event and lets it take effect. -/
def World.happen (w : World) (e : Event) : World :=
  { w with host := e.apply w.host, trace := (e, w.host) :: w.trace }

@[simp] theorem World.happen_host (w : World) (e : Event) :
    (w.happen e).host = e.apply w.host := rfl

@[simp] theorem World.happen_journal (w : World) (e : Event) :
    (w.happen e).journal = w.journal := rfl

@[simp] theorem World.happen_trace (w : World) (e : Event) :
    (w.happen e).trace = (e, w.host) :: w.trace := rfl

/-- Takes the next turn, up to the point where the effect itself starts. -/
def turn : Act Turn := fun w =>
  match w.script with
  | [] => (.killed, w)
  | t :: script =>
    let w' := t.acts.foldl (fun w act => w.happen (.endpoint t.now act)) { w with script }
    match t.fate with
    | .killed => (.killed, w')
    | _ => (.ok t, w')

/-- A turn whose effect must succeed. -/
def step : Act Turn := do
  let t ← turn
  match t.fate with
  | .failed _ => Prog.fail (.os t.detail)
  | _ => pure t

def happen (e : Event) : Act Unit := Prog.modify (·.happen e)

/-- An effect that happens as a whole or fails without a trace. -/
def perform (e : Event) : Act Unit := do
  let _ ← step
  happen e

/-- Reads the host: one fallible read. -/
def inspect : Act Host := do
  let _ ← step
  let w ← Prog.get
  pure w.host

/-- The `journal` variable. -/
def getJournal : Act Journal := do
  let w ← Prog.get
  pure w.journal

def setJournal (j : Journal) : Act Unit := Prog.modify (fun w => { w with journal := j })

/-- Fails with an error unless `c` holds. -/
def refuse (c : Prop) [Decidable c] (fault : Fault) : Act Unit := Prog.ensure c fault

/-- `unix_now`. -/
def unixNow : Act Nat := do
  let t ← step
  pure t.now

/-- `now`: a clock before the epoch reads as zero. -/
def clockNow : Act Nat := do
  let t ← turn
  match t.fate with
  | .failed _ => pure 0
  | _ => pure t.now

end Lariska
