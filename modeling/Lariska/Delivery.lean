import Lariska.Spool
import Lariska.History

/-!
# The delivery client

Snapshots are spooled by the inventory loop and submitted by a worker, two
tasks of one client that share the spool, the last accepted state and the
digest enqueued last. The model is the client with its tasks and the server:
each event is what one task does between two points where the other may run
or the process may die, so a crash can fall between any two durable effects.
The environment's part – times, answers, errors – is in the events.

`enqueue_if_needed` has two events, since it takes two locks one after the
other: `due` under that of the accepted state, `enqueue` under that of the
queue. `drain_spool` has one for each effect.
-/

namespace Lariska

structure Settings where
  maxSpoolEntries : Nat
  fullRefreshInterval : Nat

structure AcceptedState where
  digest : String
  acceptedAtUnixSecs : Nat
deriving DecidableEq

/-! ## The delivery state on disk -/

/-- `delivery-state-v1.json`. -/
structure StateDocument where
  formatVersion : Nat
  digest : String
  acceptedAtUnixSecs : Nat
deriving DecidableEq

def stateFormatVersion : Nat := 1

/-- The checks of `load` on a decoded document. -/
def StateDocument.load (d : StateDocument) : Except String AcceptedState := do
  demand (d.formatVersion = stateFormatVersion)
    ("unsupported delivery state format version " ++ toString d.formatVersion)
  demand (d.digest.utf8ByteSize = 64 ∧ (Json.bytes d.digest).all isHexDigit = true)
    "delivery state contains an invalid SHA-256 digest"
  demand (d.acceptedAtUnixSecs ≠ 0) "delivery state contains an invalid acceptance timestamp"
  pure ⟨toAsciiLowercase d.digest, d.acceptedAtUnixSecs⟩

/-- The document `store` writes. -/
def AcceptedState.document (a : AcceptedState) : StateDocument :=
  ⟨stateFormatVersion, a.digest, a.acceptedAtUnixSecs⟩

/-- What the document on disk says, if it is there and valid. -/
def loaded (document : Option StateDocument) : Option AcceptedState :=
  document.bind fun d => d.load.toOption

/-- `load_or_discard_invalid`: the state, and what is left on disk. -/
def loadOrDiscardInvalid (document : Option StateDocument) (readable removable : Bool) :
    Option AcceptedState × Option StateDocument :=
  match if readable then loaded document else none with
  | some accepted => (some accepted, document)
  | none => (none, if removable then none else document)

/-! ## The client and the server -/

/-- What a running client holds in memory. -/
structure Client where
  lastAccepted : Option AcceptedState
  lastEnqueuedDigest : Option String
deriving DecidableEq

/-- Where the inventory loop is in `enqueue_if_needed`. -/
inductive InventoryTask where
  | idle
  /-- `due_for_submission` has answered; the lock of the queue is next. -/
  | deciding (snapshot : InventorySnapshot) (dueForSubmission : Bool)
deriving DecidableEq

/-- Where the worker is in `drain_spool`, with the paths still to come. -/
inductive WorkerTask where
  | idle
  /-- `newest_pending_digest`, newest first: the client is being made. -/
  | inspecting (paths : List String)
  | next (paths : List String)
  /-- `submit_one`. -/
  | submitting (snapshot : InventorySnapshot) (paths : List String)
  /-- The server has accepted it. -/
  | accepted (snapshot : InventorySnapshot) (paths : List String)
  /-- It is removed from the spool. -/
  | removed (digest : String) (paths : List String)
  /-- The delivery state is stored. -/
  | stored (accepted : AcceptedState) (paths : List String)
deriving DecidableEq

structure Delivery where
  spool : Spool
  deliveryState : Option StateDocument
  /-- The running client. -/
  client : Option Client
  inventory : InventoryTask
  worker : WorkerTask
  /-- What the server has accepted, newest first. -/
  server : List InventorySnapshot
deriving DecidableEq

/-- The ways a payload is rejected for good: 409, 413 and 422. -/
inductive Rejection where
  | conflict | payloadTooLarge | validation

/-- What comes of a submission. -/
inductive Answer where
  | accepted
  /-- The server accepts it, and its answer does not arrive. -/
  | lost
  | rejected (why : Rejection) (moved : FileResult)
  /-- Any other error that the retries do not overcome. -/
  | refused

/-- The environment's part in spooling a snapshot. -/
structure Spooling where
  /-- The modification time the file gets. -/
  modified : Nat
  /-- The place it takes in the directory. -/
  place : Nat
  written : FileResult
  /-- After how many removals of `enforce_limit` one fails, if one does. -/
  evictable : Option Nat

inductive DeliveryEvent where
  /-- `DeliveryClient::new`, up to the inspection of the spool. -/
  | start (readable removable listed : Bool)
  /-- ... one entry of the inspection, or its end. -/
  | inspect (readable : Bool) (moved : FileResult)
  | due (snapshot : InventorySnapshot) (now : Nat)
  | enqueue (spooling : Spooling)
  /-- The process dies while spooling, after the write and some removals. -/
  | killedSpooling (modified place evicted : Nat)
  | list (listed : Bool)
  | read (readable : Bool) (moved : FileResult)
  | answer (answer : Answer)
  | remove (result : FileResult)
  | store (now : Nat) (result : FileResult)
  | record
  /-- `clear_enqueued_if_spool_empty`. -/
  | clear (listed : Bool)
  | crash

/-! ## Deciding -/

/-- `due_for_submission`. -/
def dueForSubmission (settings : Settings) (lastAccepted : Option AcceptedState) (digest : String)
    (now : Nat) : Bool :=
  match lastAccepted with
  | none => true
  | some last =>
    last.digest != digest || last.acceptedAtUnixSecs > now
      || now - last.acceptedAtUnixSecs ≥ settings.fullRefreshInterval

/-- `enqueue_if_needed` returns `Ok(false)`. -/
def Client.suppresses (c : Client) (digest : String) (due : Bool) : Bool :=
  c.lastEnqueuedDigest == some digest || (!due && c.lastEnqueuedDigest == none)

/-! ## Steps -/

namespace Delivery

variable (L : Libraries) (settings : Settings) (σ : Delivery)

/-- `DeliveryClient::new`, up to the inspection of the spool. -/
def start (readable removable listed : Bool) : Option Delivery :=
  match σ.client with
  | some _ => none
  | none =>
    let state := loadOrDiscardInvalid σ.deliveryState readable removable
    some { σ with
      deliveryState := state.2
      client := some ⟨state.1, none⟩
      worker := .inspecting (if listed then σ.spool.pendingPaths.reverse else []) }

/-- `newest_pending_digest`: the next entry, newest first, until one is read. -/
def inspect (readable : Bool) (moved : FileResult) : Option Delivery :=
  match σ.client, σ.worker with
  | some _, .inspecting [] => some { σ with worker := .idle }
  | some client, .inspecting (path :: paths) =>
    let (read, spool) := σ.spool.readPending L path readable moved
    match read with
    | .ok (some snapshot) => some { σ with
        spool
        client := some { client with lastEnqueuedDigest := some (snapshot.contentDigest L) }
        worker := .idle }
    | _ => some { σ with spool, worker := .inspecting paths }
  | _, _ => none

/-- `enqueue_if_needed`, its first half: the digest and `due_for_submission`. -/
def due (snapshot : InventorySnapshot) (now : Nat) : Option Delivery :=
  match σ.client, σ.inventory, σ.worker with
  | some _, .idle, .inspecting _ => none
  | some client, .idle, _ => some { σ with
      inventory := .deciding snapshot
        (dueForSubmission settings client.lastAccepted (snapshot.contentDigest L) now) }
  | _, _, _ => none

/-- The spool after a snapshot has been written and so many entries over the
limit removed. -/
def spooled (snapshot : InventorySnapshot) (modified place : Nat) (evictable : Option Nat) :
    Spool :=
  let written := σ.spool.write L snapshot modified place
  let excess := (written.overLimit settings.maxSpoolEntries).map SpoolFile.name
  written.without (excess.take (evictable.getD excess.length))

/-- `enqueue_if_needed`, its second half, under the lock of the queue. -/
def enqueue (spooling : Spooling) : Option Delivery :=
  match σ.client, σ.inventory with
  | some client, .deciding snapshot due =>
    let digest := snapshot.contentDigest L
    if client.suppresses digest due then some { σ with inventory := .idle }
    else if snapshot.toCanonicalJson.length > maxSnapshotBytes then
      some { σ with inventory := .idle }
    else match spooling.written with
      | .failed effective => some { σ with
          spool := if effective then
            σ.spool.write L snapshot spooling.modified spooling.place else σ.spool
          inventory := .idle }
      | .done => some { σ with
          spool := σ.spooled L settings snapshot spooling.modified spooling.place
            spooling.evictable
          client := some { client with lastEnqueuedDigest := some digest }
          inventory := .idle }
  | _, _ => none

/-- The process is gone: its memory and its tasks. -/
def crash : Delivery := { σ with client := none, inventory := .idle, worker := .idle }

/-- The process dies while spooling. -/
def killedSpooling (modified place evicted : Nat) : Option Delivery :=
  match σ.client, σ.inventory with
  | some client, .deciding snapshot due =>
    if client.suppresses (snapshot.contentDigest L) due = true
        ∨ snapshot.toCanonicalJson.length > maxSnapshotBytes then none
    else some { σ with
      spool := σ.spooled L settings snapshot modified place (some evicted) }.crash
  | _, _ => none

/-- `drain_spool`: the paths are enumerated. -/
def list (listed : Bool) : Option Delivery :=
  match σ.client, σ.worker with
  | some _, .idle => some { σ with
      worker := if listed then .next σ.spool.pendingPaths else .idle }
  | _, _ => none

/-- ... the next entry is read. -/
def read (readable : Bool) (moved : FileResult) : Option Delivery :=
  match σ.worker with
  | .next (path :: paths) =>
    let (read, spool) := σ.spool.readPending L path readable moved
    match read with
    | .ok (some snapshot) => some { σ with spool, worker := .submitting snapshot paths }
    | .ok none => some { σ with spool, worker := .next paths }
    | .error _ => some { σ with spool, worker := .idle }
  | _ => none

/-- ... and submitted, `submit_one`. -/
def answer (answer : Answer) : Option Delivery :=
  match σ.worker with
  | .submitting snapshot paths =>
    match answer with
    | .accepted => some { σ with
        server := snapshot :: σ.server
        worker := .accepted snapshot paths }
    | .lost => some { σ with server := snapshot :: σ.server }
    | .rejected _ moved => some { σ with
        spool := if moved.effective then σ.spool.quarantineById snapshot.snapshotId else σ.spool
        worker := if moved = .done then .next paths else .idle }
    | .refused => some { σ with worker := .idle }
  | _ => none

/-- ... an accepted entry is removed from the spool. -/
def remove (result : FileResult) : Option Delivery :=
  match σ.worker with
  | .accepted snapshot paths => some { σ with
      spool := if result.effective then σ.spool.remove snapshot.snapshotId else σ.spool
      worker := if result = .done then .removed (snapshot.contentDigest L) paths else .idle }
  | _ => none

/-- ... its state stored; an error is only logged. -/
def store (now : Nat) (result : FileResult) : Option Delivery :=
  match σ.worker with
  | .removed digest paths =>
    let accepted : AcceptedState := ⟨digest, now⟩
    some { σ with
      deliveryState := if result.effective then some accepted.document else σ.deliveryState
      worker := .stored accepted paths }
  | _ => none

/-- ... and remembered. -/
def record : Option Delivery :=
  match σ.client, σ.worker with
  | some client, .stored accepted paths => some { σ with
      client := some { client with lastAccepted := some accepted }
      worker := .next paths }
  | _, _ => none

/-- `clear_enqueued_if_spool_empty`, at the end of `drain_spool`. -/
def clear (listed : Bool) : Option Delivery :=
  match σ.client, σ.worker with
  | some client, .next [] => some { σ with
      client := some (if listed = true ∧ σ.spool.pendingFiles = [] then
        { client with lastEnqueuedDigest := none } else client)
      worker := .idle }
  | _, _ => none

/-- **One step of the client, its server and its environment.** -/
def step : DeliveryEvent → Option Delivery
  | .start readable removable listed => σ.start readable removable listed
  | .inspect readable moved => σ.inspect L readable moved
  | .due snapshot now => σ.due L settings snapshot now
  | .enqueue spooling => σ.enqueue L settings spooling
  | .killedSpooling modified place evicted => σ.killedSpooling L settings modified place evicted
  | .list listed => σ.list listed
  | .read readable moved => σ.read L readable moved
  | .answer answer => σ.answer answer
  | .remove result => σ.remove L result
  | .store now result => σ.store now result
  | .record => σ.record
  | .clear listed => σ.clear listed
  | .crash => some σ.crash

/-- A state directory no client has worked in, whatever the server has. -/
def Fresh : Prop :=
  σ.spool = ⟨[], []⟩ ∧ σ.deliveryState = none ∧ σ.client = none ∧ σ.inventory = .idle ∧
    σ.worker = .idle

end Delivery

/-- The histories of the delivery client. -/
abbrev Delivered (L : Libraries) (settings : Settings) :
    Past Delivery DeliveryEvent → Delivery → Prop :=
  History Delivery.Fresh fun _ σ e σ' => σ.step L settings e = some σ'

end Lariska
