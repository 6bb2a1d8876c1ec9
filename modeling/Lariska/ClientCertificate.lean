import Lariska.Host
import Lariska.Inventory

/-!
# Client certificates

The endpoint generates a key, has the server issue a certificate for it and
keeps both in one document, `client-identity.json`. A request under way is
kept in a second one, `client-enrollment.json`, from before it is sent, and
beside the two documents the process holds what it has loaded of them.

`load` and `ensure` are programs over both. Each effect takes one `Turn`,
which says what the clock shows, how the effect ends and what the server
answers to whatever it is asked. A call that stops in the middle is a crash
when the process is loaded anew next; when it is not, the call was dropped.

Keys, certificates, times and the HTTP client are those of the libraries in
`Pki`.
-/

namespace Lariska.Mtls

open Prog (lift attempt)

inductive ApiError where
  | auth
  | forbidden (detail : String)
  | conflict (detail : String)
  | rateLimited (retryAfter : Option Nat)
  | payloadTooLarge (detail : String)
  | validation (detail : String)
  | transient (detail : String)
  | fatal (detail : String)
deriving DecidableEq

/-- `fatal`. -/
def fatal (detail : String) : ApiError := .fatal ("client certificate: " ++ detail)

/-! ## Documents -/

structure Bundle where
  key : String
  certificate : String
  caCertificate : String
  renewAfter : String
deriving DecidableEq

structure Pending where
  key : String
  csr : String
  serverUrl : String
deriving DecidableEq

structure Issued where
  certificate : String
  caCertificate : String
  renewAfter : String

/-- What a certificate says. -/
structure Certificate where
  publicKey : Bytes
  notBefore : Int
  notAfter : Int

/-- **The libraries**: `rcgen`, `x509_parser`, `time`, `reqwest`, `serde_json`. -/
structure Pki where
  /-- `KeyPair::from_pem`, to its public key. -/
  publicKey : String → Except String Bytes
  /-- `KeyPair::generate` and a signing request for the key, as they come from
  so many random bytes. -/
  generate : Bytes → Except String (String × String)
  /-- The public key a signing request is for. -/
  requestKey : String → Bytes
  /-- A request made for a key is for that key. -/
  generate_key : ∀ seed key csr, generate seed = .ok (key, csr) →
    publicKey key = .ok (requestKey csr)
  /-- `parse_x509_pem` and `parse_x509`. -/
  parseCertificate : String → Except String Certificate
  /-- `OffsetDateTime::parse`, to a Unix timestamp. -/
  parseTime : String → Except String Int
  /-- `Identity::from_pem`. -/
  identity : String → Except String Unit
  /-- `serde_json::from_slice` at `Issued`. -/
  readIssued : Bytes → Except String Issued
  fromUtf8Lossy : Bytes → String

structure Config where
  serverUrl : String
  tlsCaFile : Option String

/-- The memory of a process. -/
structure State where
  bundle : Option Bundle
  unavailable : Bool
  retryAt : Int
  pending : Option Pending

/-- The state directory. -/
structure Files where
  /-- `client-identity.json`. -/
  identity : Option Bundle
  /-- `client-enrollment.json`. -/
  enrollment : Option Pending

/-- An HTTP client, with the identity it presents. -/
structure Client where
  identity : Option Bundle

/-! ## Turns and effects -/

inductive Route where
  | issue | recover

/-- Below `/api/v1/agent/`. -/
def Route.path : Route → String
  | .issue => "certificate"
  | .recover => "certificate/recover"

structure Response where
  status : Nat
  /-- The status code with its reason, as it is displayed. -/
  statusLine : String
  retryAfter : Option Nat
  body : Bytes

inductive Event where
  /-- A signing request goes to the server. -/
  | sent (route : Route) (pending : Pending)
  | storedPending (pending : Pending)
  | storedBundle (bundle : Bundle)
  | removedPending

def Event.apply (e : Event) (files : Files) : Files :=
  match e with
  | .sent _ _ => files
  | .storedPending pending => { files with enrollment := some pending }
  | .storedBundle bundle => { files with identity := some bundle }
  | .removedPending => { files with enrollment := none }

structure Turn where
  /-- The clock, in seconds since the epoch. -/
  now : Int
  fate : Fate
  /-- The text of the system or transport error, when there is one. -/
  detail : String
  /-- The transport error is a timeout, or one of connecting or sending. -/
  transient : Bool
  /-- Random bytes, where they are drawn. -/
  random : Bytes
  /-- What the server answers to a signing request on a route. -/
  answer : Route → String → Response

structure World where
  files : Files
  self : State
  script : List Turn
  trace : Past Files Event

abbrev Act (α : Type) : Type := Prog World ApiError α

def World.happen (w : World) (e : Event) : World :=
  { w with files := e.apply w.files, trace := (e, w.files) :: w.trace }

/-- Takes the next turn. -/
def turn : Act Turn := fun w =>
  match w.script with
  | [] => (.killed, w)
  | t :: script =>
    match t.fate with
    | .killed => (.killed, { w with script })
    | _ => (.ok t, { w with script })

/-- A turn whose effect must succeed. -/
def step : Act Unit := do
  let t ← turn
  match t.fate with
  | .failed _ => Prog.fail (fatal t.detail)
  | _ => pure ()

/-- A turn of the network: `classify_transport_error`. -/
def exchange : Act Turn := do
  let t ← turn
  match t.fate with
  | .failed _ => Prog.fail (if t.transient then .transient t.detail else .fatal t.detail)
  | _ => pure t

/-- `OffsetDateTime::now_utc`. -/
def clock : Act Int := do
  let t ← turn
  pure t.now

def happen (e : Event) : Act Unit := Prog.modify (·.happen e)

def setSelf (f : State → State) : Act Unit := Prog.modify fun w => { w with self := f w.self }

def refuse (c : Prop) [Decidable c] (e : ApiError) : Act Unit := Prog.ensure c e

/-- The value of a library call, its error as `fatal`. -/
def library {α : Type} (x : Except String α) : Act α := lift (x.mapError fatal)

/-- `persist_named`: a temporary file is written and synced, takes the place of
the document, and the directory is synced. -/
def persistNamed (e : Event) : Act Unit := do
  step
  step
  happen e
  step

/-! ## Certificates -/

def Certificate.validAt (c : Certificate) (now : Int) : Bool := c.notBefore ≤ now && now ≤ c.notAfter

section Programs

variable (K : Pki) (config : Config)

/-- `valid_now`. -/
def validNow (b : Bundle) : Act Bool := do
  let certificate ← library (K.parseCertificate b.certificate)
  let now ← clock
  pure (certificate.validAt now)

/-- `validate`. -/
def validate (b : Bundle) : Except ApiError Unit := do
  let key ← (K.publicKey b.key).mapError fatal
  let certificate ← (K.parseCertificate b.certificate).mapError fatal
  if certificate.publicKey ≠ key then .error (fatal "certificate does not match private key")
  else do
    let renewal ← (K.parseTime b.renewAfter).mapError fatal
    if renewal ≥ certificate.notAfter then
      .error (fatal "renewal must precede certificate expiration")
    else .ok ()

/-- The PEM text an identity is read from. -/
def Bundle.pem (b : Bundle) : String := b.key ++ "\n" ++ b.certificate ++ "\n" ++ b.caCertificate

/-- The authority of `tls_ca_file`, when there is one. -/
def readAuthority : Act Unit := if config.tlsCaFile = none then pure () else step

def useIdentity : Option Bundle → Act Unit
  | none => pure ()
  | some b => library (K.identity b.pem)

/-- `build`. -/
def build (bundle : Option Bundle) : Act Client := do
  readAuthority config
  useIdentity K bundle
  step
  pure ⟨bundle⟩

/-- `valid_now(b).unwrap_or(false)` of the bundle in memory. -/
def usableBundle : Option Bundle → Act Bool
  | none => pure false
  | some b => do
    match ← attempt (validNow K b) with
    | .ok valid => pure valid
    | .error _ => pure false

/-- `State::client`: an identity that is not valid now is not presented. -/
def client : Act Client := do
  let w ← Prog.get
  let usable ← usableBundle K w.self.bundle
  build K config (if usable then w.self.bundle else none)

/-! ## The server -/

def maxSuccessResponseBytes : Nat := 1024 * 1024
def maxErrorResponseBytes : Nat := 64 * 1024
def maxErrorDetailChars : Nat := 500

/-- `read_response_body_limited`: what there is, unless it is too large. -/
def readBody (response : Response) (limit : Nat) : Act (Option Bytes) := do
  let _ ← exchange
  pure (if response.body.length > limit then none else some response.body)

def tooLarge (limit : Nat) : String := "response body exceeds " ++ toString limit ++ " bytes"

def sanitizeDetail (body : String) : String :=
  let trimmed := trim body
  if trimmed.length ≤ maxErrorDetailChars then String.ofList trimmed
  else String.ofList (trimmed.take maxErrorDetailChars) ++ "... (truncated)"

/-- The error of a status. -/
def Response.error (response : Response) (detail : String) : ApiError :=
  match response.status with
  | 401 => .auth
  | 403 => .forbidden detail
  | 409 => .conflict detail
  | 429 => .rateLimited response.retryAfter
  | 413 => .payloadTooLarge detail
  | 422 => .validation detail
  | 408 => .transient detail
  | 425 => .transient detail
  | status =>
    if 500 ≤ status ∧ status < 600 then .transient detail
    else .fatal ("unexpected status " ++ response.statusLine ++ ": " ++ detail)

/-- `classify_response`, of an issued certificate. -/
def classifyResponse (response : Response) : Act Issued := do
  if 200 ≤ response.status ∧ response.status < 300 then do
    match ← readBody response maxSuccessResponseBytes with
    | none => Prog.fail (.fatal (tooLarge maxSuccessResponseBytes))
    | some body =>
      lift ((K.readIssued body).mapError fun e => .fatal ("failed to decode response: " ++ e))
  else do
    let body ← readBody response maxErrorResponseBytes
    let detail := match body with
      | none => tooLarge maxErrorResponseBytes
      | some body => sanitizeDetail (K.fromUtf8Lossy body)
    Prog.fail (response.error detail)

/-- `request_certificate`. -/
def requestCertificate (route : Route) (pending : Pending) : Act Response := do
  let _ ← client K config
  happen (.sent route pending)
  let t ← exchange
  pure (t.answer route pending.csr)

/-! ## Enrollment -/

/-- A new key, stored before anything is sent. -/
def newPending : Act Pending := do
  let t ← turn
  let (key, csr) ← library (K.generate t.random)
  let pending : Pending := ⟨key, csr, config.serverUrl⟩
  persistNamed (.storedPending pending)
  setSelf fun s => { s with pending := some pending }
  pure pending

/-- `fs::remove_file`, which fails when there is no file. -/
def removePending : Act Unit := do
  step
  let w ← Prog.get
  refuse (w.files.enrollment ≠ none) (fatal "No such file or directory")
  happen .removedPending

/-- The end of `enroll`: the issued certificate is checked and published. -/
def publish (pending : Pending) (issued : Issued) : Act Client := do
  let bundle : Bundle :=
    ⟨pending.key, issued.certificate, issued.caCertificate, issued.renewAfter⟩
  lift (validate K bundle)
  let valid ← validNow K bundle
  refuse (valid = true) (fatal "issuer returned a certificate outside its validity period")
  let client ← build K config (some bundle)
  persistNamed (.storedBundle bundle)
  removePending
  step
  setSelf fun s => { s with pending := none, bundle := some bundle, retryAt := 0 }
  pure client

/-- The request of `enroll` for a certificate that was not issued before. -/
def issueNew (pending : Pending) : Act Client := do
  let response ← requestCertificate K config .issue pending
  let w ← Prog.get
  if response.status = 404 ∧ w.self.bundle = none then do
    setSelf fun s => { s with unavailable := true }
    client K config
  else do
    let issued ← classifyResponse K response
    publish K config pending issued

/-- `State::enroll`: a request from before is looked up first. -/
def enroll : Act Client := do
  let w ← Prog.get
  match w.self.pending with
  | none => do
    let pending ← newPending K config
    issueNew K config pending
  | some pending => do
    let response ← requestCertificate K config .recover pending
    if response.status = 404 then issueNew K config pending
    else do
      let issued ← classifyResponse K response
      publish K config pending issued

/-! ## The machine -/

def Config.https (config : Config) : Bool := "https://".toList.isPrefixOf config.serverUrl.toList

/-- A new certificate is due. -/
def renewalDue (now : Int) : Option Bundle → Act Bool
  | none => pure true
  | some b => do
    let valid ← validNow K b
    if valid then do
      let renewal ← library (K.parseTime b.renewAfter)
      pure (now ≥ renewal)
    else pure true

/-- `State::ensure`. -/
def ensure : Act Client := do
  let now ← clock
  let w ← Prog.get
  if config.https = false ∨ w.self.unavailable = true then client K config
  else do
    let due ← renewalDue K now w.self.bundle
    if due = false then client K config
    else do
      let usable ← usableBundle K w.self.bundle
      if now < w.self.retryAt then
        if usable then client K config
        else Prog.fail (.transient "certificate enrollment is backing off")
      else do
        setSelf fun s => { s with retryAt := now + 300 }
        match ← attempt (enroll K config) with
        | .ok client => pure client
        | .error .auth => do
          setSelf fun s => { s with retryAt := 0 }
          Prog.fail .auth
        | .error e => if usable then client K config else Prog.fail e

/-- `State::recover`. -/
def State.recover (s : State) : State := { s with bundle := none, unavailable := false, retryAt := 0 }

/-- The checks of `load` on `client-identity.json`. -/
def checkIdentity : Option Bundle → Act Unit
  | none => pure ()
  | some b => lift (validate K b)

/-- The checks of `load` on `client-enrollment.json`. -/
def checkEnrollment : Option Pending → Act Unit
  | none => pure ()
  | some pending => do
    refuse (pending.serverUrl = config.serverUrl)
      (fatal "pending enrollment belongs to a different server")
    discard (library (K.publicKey pending.key))

/-- `State::load`. -/
def load : Act State := do
  step
  let w ← Prog.get
  checkIdentity K w.files.identity
  step
  checkEnrollment K config w.files.enrollment
  pure ⟨w.files.identity, false, 0, w.files.enrollment⟩

end Programs

/-! ## Runs -/

inductive Op where
  /-- The process is started, or started again. -/
  | load (config : Config)
  | ensure
  | recover

/-- The state directory, and the process when there is one. -/
structure Machine where
  files : Files
  session : Option (Config × State)

section Runs

variable (K : Pki)

/-- One operation under its script. -/
def operate (op : Op) (script : List Turn) (past : Past Files Event) (m : Machine) :
    Past Files Event × Machine :=
  match op, m.session with
  | .load config, _ =>
    match load K config ⟨m.files, ⟨none, false, 0, none⟩, script, past⟩ with
    | (.ok s, w) => (w.trace, ⟨w.files, some (config, s)⟩)
    | (_, w) => (w.trace, ⟨w.files, none⟩)
  | .ensure, some (config, s) =>
    let w := (ensure K config ⟨m.files, s, script, past⟩).2
    (w.trace, ⟨w.files, some (config, w.self)⟩)
  | .recover, some (config, s) => (past, ⟨m.files, some (config, s.recover)⟩)
  | _, none => (past, m)

def operateAll : List (Op × List Turn) → Past Files Event → Machine → Past Files Event × Machine
  | [], past, m => (past, m)
  | (op, script) :: rest, past, m =>
    operateAll rest (operate K op script past m).1 (operate K op script past m).2

end Runs

/-- A sequence of operations in a state directory without documents. -/
structure CertificateRun where
  operations : List (Op × List Turn)

namespace CertificateRun

variable (K : Pki) (r : CertificateRun)

def past : Past Files Event := (operateAll K r.operations [] ⟨⟨none, none⟩, none⟩).1

def machine : Machine := (operateAll K r.operations [] ⟨⟨none, none⟩, none⟩).2

end CertificateRun

end Lariska.Mtls
