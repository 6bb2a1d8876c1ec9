import Lariska.Supervisor

/-!
# The endpoint's request queue

The unprivileged endpoint stages a package under `update/incoming/` and
publishes it with `ready.json`; the supervisor lists what is published and
acknowledges, in `request-result.json`, what it has accepted or refused; and
the endpoint removes an acknowledged request before it stages the next.

`queueUpdate` is the endpoint's side. As for the supervisor, each of its
effects takes one `Turn` of a script, which says what the other party did just
before and how the effect ends. A cancelled `await` ends like a failed one: it
drops the staging guard, which a kill does not.
-/

namespace Lariska.Endpoint

open Prog (lift need ensure attempt guarded)

/-- `reqwest::Url`, as far as a download uses it. A URL is its text. -/
structure Web where
  parse : String → Except String String
  join : String → String → Except String String
  origin : String → String

structure Response where
  /-- Where the redirects ended. -/
  url : String
  status : Nat
  /-- The status code with its reason, as it is displayed. -/
  statusLine : String
  contentLength : Option Nat
  chunks : List Bytes

/-- Which files of a request directory are still there. -/
structure Remnant where
  ready : Bool
  manifest : Bool
  artifact : Bool

def Remnant.of (kept : Remnant) (r : Request) : Request where
  ready := r.ready && kept.ready
  manifest := if kept.manifest then r.manifest else none
  artifact := if kept.artifact then r.artifact else none

/-! ## The state directory -/

/-- The endpoint's state directory, and what the supervisor knows of it. -/
structure Station where
  /-- `update/update-state.json`. -/
  ledger : Option UpdateLedger
  shared : Shared
  /-- What `incoming_requests` returned last. -/
  listed : List String

namespace Station

def names (s : Station) : List String := s.shared.incoming.map Prod.fst

def setIncoming (s : Station) (incoming : List (String × Request)) : Station :=
  { s with shared := { s.shared with incoming } }

/-- Changes the contents of a request directory. -/
def update (s : Station) (name : String) (f : Request → Request) : Station :=
  s.setIncoming (s.shared.incoming.map (fun e => if e.1 = name then (e.1, f e.2) else e))

def setResult (s : Station) (result : Option RequestResult) : Station :=
  { s with shared := { s.shared with result } }

end Station

structure ReadyRequest where
  nonce : String
  version : String
  packageKind : PackageKind
  createdAt : Nat

inductive Event where
  /-- `incoming_requests` of the supervisor. -/
  | listed (names : List String)
  /-- `ack_request` of the supervisor. -/
  | answered (result : RequestResult)
  /-- `reap_consumed_request` reads the result: none that it can read, or one. -/
  | sawResult (result : Option RequestResult)
  /-- `fs::remove_dir_all` has come this far. -/
  | stripped (name : String) (kept : Remnant)
  | removedDir (name : String)
  | removedResult
  /-- `queue_update` reads the directory of requests. -/
  | looked
  /-- `queue_update` refuses, as a request is already queued. -/
  | refused
  | madeDir (name : String)
  /-- Bytes are appended to the artifact, which is created with none. -/
  | received (name : String) (chunk : Bytes)
  | wroteManifest (name : String) (bytes : Bytes)
  | published (ready : ReadyRequest)
  /-- The removal in the destructor of `Staging` fails. -/
  | dropFailed (name : String)
  /-- The call is over, with a value or an error. -/
  | returned
  /-- The process is killed in the middle of the call. -/
  | died

/-- **What an event does to the state directory.** -/
def Event.apply (e : Event) (s : Station) : Station :=
  match e with
  | .listed names => { s with listed := names }
  | .answered result => { s with shared := (MailboxWrite.publishResult result).apply s.shared }
  | .stripped name kept => s.update name kept.of
  | .removedDir name => s.setIncoming (s.shared.incoming.filter (fun e => e.1 ≠ name))
  | .removedResult => s.setResult none
  | .madeDir name => s.setIncoming ((name, ⟨false, none, none⟩) :: s.shared.incoming)
  | .received name chunk =>
    s.update name (fun r => { r with artifact := some (r.artifact.getD [] ++ chunk) })
  | .wroteManifest name bytes => s.update name (fun r => { r with manifest := some bytes })
  | .published ready => s.update ready.nonce (fun r => { r with ready := true })
  | _ => s

/-! ## The supervisor -/

/-- What the supervisor does between two effects of the endpoint. -/
inductive SupervisorAct where
  | list
  | acknowledge (nonce outcome : String) (now : Nat)

/-- The supervisor acknowledges only requests it has listed, and `ack_request`
refuses an invalid nonce or outcome. -/
def SupervisorAct.event (act : SupervisorAct) (s : Station) : Option Event :=
  match act with
  | .list =>
    some (.listed (((s.shared.incoming.take maxRequests).filter (fun e => e.2.ready)).map Prod.fst
      |>.insertionSort (fun a b => a ≤ b)))
  | .acknowledge nonce outcome now =>
    if nonce ∈ s.listed ∧ validNonce nonce = true ∧ (outcome = "accepted" ∨ outcome = "refused")
    then some (.answered ⟨nonce, outcome, now⟩) else none

/-! ## Turns and effects -/

structure Turn where
  /-- What the supervisor does first. -/
  acts : List SupervisorAct
  now : Nat
  fate : Fate
  /-- The text of the system error, when there is one. -/
  detail : String
  /-- Sixteen random bytes, where they are drawn. -/
  random : Vector UInt8 16
  /-- The server's answer, where one is awaited. -/
  response : Response
  /-- What a removal leaves while it is under way. -/
  kept : Remnant

structure World where
  station : Station
  script : List Turn
  trace : Past Station Event

/-- A program of the endpoint. -/
abbrev Act (α : Type) : Type := Prog World Fault α

def World.happen (w : World) (e : Event) : World :=
  { w with station := e.apply w.station, trace := (e, w.station) :: w.trace }

@[simp] theorem World.happen_station (w : World) (e : Event) :
    (w.happen e).station = e.apply w.station := rfl

@[simp] theorem World.happen_trace (w : World) (e : Event) :
    (w.happen e).trace = (e, w.station) :: w.trace := rfl

/-- One act of the supervisor, if it can be done. -/
def World.supervise (w : World) (act : SupervisorAct) : World :=
  match act.event w.station with
  | some e => w.happen e
  | none => w

/-- Takes the next turn, up to the point where the effect itself starts. -/
def turn : Act Turn := fun w =>
  match w.script with
  | [] => (.killed, w)
  | t :: script =>
    let w' := t.acts.foldl World.supervise { w with script }
    match t.fate with
    | .killed => (.killed, w')
    | _ => (.ok t, w')

/-- A turn whose effect must succeed, with the error of one that does not. -/
def stepOr (fault : String → Fault) : Act Turn := do
  let t ← turn
  match t.fate with
  | .failed _ => Prog.fail (fault t.detail)
  | _ => pure t

def step : Act Turn := stepOr .os

def happen (e : Event) : Act Unit := Prog.modify (·.happen e)

def perform (e : Event) : Act Unit := do
  let _ ← step
  happen e

def refuse (c : Prop) [Decidable c] (fault : Fault) : Act Unit := Prog.ensure c fault

/-- `unix_now`. -/
def unixNow : Act Nat := do
  let t ← step
  pure t.now

/-- The value of a library call, its error as text. -/
def library {α : Type} (x : Except String α) : Act α := lift (x.mapError .os)

/-- `fs::remove_dir_all`: the files go one by one, then the directory. A
directory that is not there is none. -/
def removeDirAll (name : String) : Act Unit := do
  let t ← step
  happen (.stripped name t.kept)
  perform (.removedDir name)

/-! ## Verification -/

def hexDigit (n : Nat) : Char := "0123456789abcdef".toList.getD n '0'

/-- `encode_hex`. -/
def encodeHex (bytes : Bytes) : String :=
  String.ofList (bytes.flatMap fun b => [hexDigit (b.toNat / 16), hexDigit (b.toNat % 16)])

/-- A signed manifest as it is stored. -/
def signedJson (signed : SignedManifest) : Bytes :=
  Json.object [("manifest", signed.manifest.json), ("signature", Json.str signed.signature)]

/-- What the control channel asks for, with the configuration of the endpoint. -/
structure Offer where
  config : Config
  serverUrl : String
  signed : SignedManifest
  url : String

section Programs

variable (P : Platform) (W : Web)

/-- `read_ledger`, of the directory `update/`. -/
def readLedger : Act UpdateLedger := do
  let _ ← step
  let w ← Prog.get
  match w.station.ledger with
  | none => pure (UpdateLedger.initial P)
  | some ledger =>
    lift (checkLedger P ledger)
    pure ledger

/-- `verify_manifest`. -/
def verifyManifest (config : Config) (signed : SignedManifest) : Act Unit := do
  lift (verifyShape P config signed)
  let now ← unixNow
  refuse (now < signed.manifest.expiresAt) "signed update manifest has expired"
  lift (verifySignature P config signed)
  let ledger ← readLedger P
  let floor ← lift (parseVersion P ledger.floorVersion)
  let candidate ← lift (parseVersion P signed.manifest.version)
  refuse (config.admits signed.manifest.version = true
      ∨ ¬ (candidate < floor ∨ signed.manifest.sequence < ledger.floorSequence))
    (.detailed "anti-rollback floor rejects " (signed.manifest.version ++ " sequence "
      ++ toString signed.manifest.sequence ++ " (floor " ++ ledger.floorVersion
      ++ " sequence " ++ toString ledger.floorSequence ++ ")"))
  refuse (ledger.pending = none) "an update transaction is already pending"

/-! ## The queue -/

/-- `reap_consumed_request`: a result that cannot be read is none. -/
def reapConsumedRequest : Act Unit := do
  let t ← turn
  let w ← Prog.get
  let found := match t.fate with
    | .failed _ => none
    | _ => w.station.shared.result
  happen (.sawResult found)
  match found with
  | none => pure ()
  | some result => do
    lift (validateNonce result.nonce)
    refuse (result.outcome = "accepted" ∨ result.outcome = "refused")
      "invalid request consumption result"
    removeDirAll result.nonce
    perform .removedResult
    discard step

/-- The loop of `queue_update` over the chunks of the response. -/
def receive (offer : Offer) (name : String) : Bytes → List Bytes → Act Bytes
  | received, [] => do
    let _ ← stepOr (.detailed "interrupted package download: ")
    pure received
  | received, chunk :: chunks => do
    let _ ← stepOr (.detailed "interrupted package download: ")
    let count ← need (checkedAdd received.length chunk.length) "package size overflow"
    refuse (count ≤ offer.signed.manifest.sizeBytes
        ∧ count ≤ offer.config.updates.maxDownloadBytes ∧ count ≤ hardMaxDownloadBytes)
      "streamed package exceeds the signed or local size limit"
    let _ ← stepOr (.detailed "cannot stage package: ")
    happen (.received name chunk)
    receive offer name (received ++ chunk) chunks

/-- `queue_update`, while the guard is unpublished. -/
def stage (offer : Offer) (base nonce : String) : Act Unit := do
  let manifest := offer.signed.manifest
  discard step
  perform (.received nonce [])
  let t ← stepOr (.detailed "package download failed: ")
  refuse (W.origin t.response.url = W.origin base)
    "package download redirected outside the configured server origin"
  refuse (200 ≤ t.response.status ∧ t.response.status < 300)
    (.detailed "package download failed: HTTP " t.response.statusLine)
  refuse (∀ length ∈ t.response.contentLength, length = manifest.sizeBytes)
    "HTTP Content-Length does not match signed package size"
  let package ← receive offer nonce [] t.response.chunks
  refuse (package.length = manifest.sizeBytes)
    "interrupted package download: length differs from signed size"
  refuse (P.sha256 package = manifest.sha256)
    "streamed package SHA-256 differs from signed manifest"
  discard (stepOr (.detailed "cannot fsync package: "))
  perform (.wroteManifest nonce (signedJson offer.signed))
  discard step
  discard step
  let now ← unixNow
  perform (.published ⟨nonce, manifest.version, manifest.packageKind, now⟩)
  discard step
  discard step

/-- The destructor of an unpublished `Staging`. -/
def dropStaging (nonce : String) : Act Unit := do
  match ← attempt (removeDirAll nonce) with
  | .ok _ => pure ()
  | .error _ => happen (.dropFailed nonce)

/-- `queue_update`. -/
def queueUpdate (offer : Offer) : Act String := do
  verifyManifest P offer.config offer.signed
  let base ← library (W.parse offer.serverUrl)
  let path := offer.url.toList
  refuse (path.head? = some '/' ∧ path.take 2 ≠ ['/', '/'] ∧ '#' ∉ path ∧ '?' ∉ path ∧ '\\' ∉ path)
    "update download must be an absolute API path without query or fragment"
  let parsed ← library (W.join base offer.url)
  refuse (W.origin parsed = W.origin base) "update URL changed server origin"
  reapConsumedRequest
  let t ← step
  let nonce := encodeHex t.random.toList
  discard step
  happen .looked
  let w ← Prog.get
  if w.station.shared.incoming ≠ [] then do
    happen .refused
    Prog.fail "a native update request is already queued"
  else do
    perform (.madeDir nonce)
    guarded (dropStaging nonce) (stage P W offer base nonce)
    pure nonce

/-! ## Runs -/

/-- One call of `queue_update` in a process that may be killed in it. -/
def call (offer : Offer) (w : World) : World :=
  match queueUpdate P W offer w with
  | (.killed, w') => w'.happen .died
  | (_, w') => w'.happen .returned

/-- Calls one after another, each with its script. -/
def calls : List (Offer × List Turn) → Past Station Event → Station →
    Past Station Event × Station
  | [], past, s => (past, s)
  | (offer, script) :: rest, past, s =>
    let w := call P W offer ⟨s, script, past⟩
    calls rest w.trace w.station

end Programs

/-- A sequence of calls in a state directory without requests. -/
structure QueueRun where
  ledger : Option UpdateLedger
  calls : List (Offer × List Turn)

namespace QueueRun

variable (P : Platform) (W : Web) (r : QueueRun)

def start : Station := ⟨r.ledger, ⟨none, none, none, []⟩, []⟩

def past : Past Station Event := (Endpoint.calls P W r.calls [] r.start).1

def station : Station := (Endpoint.calls P W r.calls [] r.start).2

end QueueRun

end Lariska.Endpoint
