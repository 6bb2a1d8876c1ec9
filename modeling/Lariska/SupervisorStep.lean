import Lariska.Supervisor

/-!
# The supervisor as a transition system

What the supervisor may do next, as far as its durable state and the past
say: one rule for each kind of event, with the conditions under which the
programs cause it. Nothing here mentions a program; that the programs only
ever take these steps is `Lariska.SupervisorRefinement`, and everything the
later modules prove of whole runs is proved of this system.

A rule says what the written document is in terms of the one on disk, so an
invariant of the documents is a case analysis on `Permitted`.
-/

namespace Lariska

/-! ## The host after an event -/

section Apply

variable (P : Platform) (h : Host)

@[simp] theorem Host.journal_setJournal (j : Journal) : (h.setJournal j).journal = j := rfl

@[simp] theorem Host.ledger_setJournal (j : Journal) :
    (h.setJournal j).ledger P = h.ledger P := rfl

@[simp] theorem Host.cache_setJournal (j : Journal) (name : String) :
    (h.setJournal j).cache name = h.cache name := rfl

@[simp] theorem Host.installed_setJournal (j : Journal) :
    (h.setJournal j).installed = h.installed := rfl

@[simp] theorem Host.shared_setJournal (j : Journal) : (h.setJournal j).shared = h.shared := rfl

@[simp] theorem Host.journal_setLedger (l : UpdateLedger) :
    (h.setLedger l).journal = h.journal := rfl

@[simp] theorem Host.ledger_setLedger (l : UpdateLedger) : (h.setLedger l).ledger P = l := rfl

@[simp] theorem Host.cache_setLedger (l : UpdateLedger) (name : String) :
    (h.setLedger l).cache name = h.cache name := rfl

@[simp] theorem Host.installed_setLedger (l : UpdateLedger) :
    (h.setLedger l).installed = h.installed := rfl

@[simp] theorem Host.shared_setLedger (l : UpdateLedger) : (h.setLedger l).shared = h.shared := rfl

@[simp] theorem Host.journal_setCaches (caches : List (String × CacheDir)) :
    (h.setCaches caches).journal = h.journal := rfl

@[simp] theorem Host.ledger_setCaches (caches : List (String × CacheDir)) :
    (h.setCaches caches).ledger P = h.ledger P := rfl

@[simp] theorem Host.installed_setCaches (caches : List (String × CacheDir)) :
    (h.setCaches caches).installed = h.installed := rfl

@[simp] theorem Host.shared_setCaches (caches : List (String × CacheDir)) :
    (h.setCaches caches).shared = h.shared := rfl

/-- The journal on disk changes by writing it. -/
theorem Event.journal_apply (e : Event) :
    (e.apply h).journal = match e with
      | .wroteJournal _ j => j
      | _ => h.journal := by
  cases e with
  | installing call => cases hc : call.effective <;> simp [Event.apply, hc, Host.journal]
  | _ => rfl

/-- The ledger on disk changes by writing it. -/
theorem Event.ledger_apply (e : Event) :
    (e.apply h).ledger P = match e with
      | .wroteLedger _ l => l
      | _ => h.ledger P := by
  cases e with
  | installing call => cases hc : call.effective <;> simp [Event.apply, hc, Host.ledger]
  | _ => rfl

/-- The installed package changes by an installation that takes effect. -/
theorem Event.installed_apply (e : Event) :
    (e.apply h).installed = match e with
      | .installing call => if call.effective then call.manifest else h.installed
      | _ => h.installed := by
  cases e with
  | installing call => cases hc : call.effective <;> simp [Event.apply, hc]
  | _ => rfl

theorem Host.cache_makeDir_of_ne {name name' : String} (hne : name' ≠ name) :
    (h.makeDir name).cache name' = h.cache name' := by
  show List.lookup name' ((name, _) :: h.root.caches) = _
  rw [List.lookup_cons, beq_eq_false_iff_ne.mpr hne]
  rfl

/-- Writing a file changes the directory it is in. -/
theorem Host.cache_fill (name name' : String) (file : CacheFile) (bytes : Bytes) :
    (h.fill name file bytes).cache name' =
      if name' = name then (h.cache name').map (·.fill bytes file) else h.cache name' := by
  have key : ∀ caches : List (String × CacheDir),
      List.lookup name' (caches.map
        (fun e => if e.1 = name then (e.1, e.2.fill bytes file) else e)) =
      if name' = name then (List.lookup name' caches).map (·.fill bytes file)
      else List.lookup name' caches := by
    intro caches
    induction caches with
    | nil => simp
    | cons e rest ih =>
      rw [List.map_cons, List.lookup_cons, List.lookup_cons]
      by_cases hn : name' = e.1
      · by_cases he : e.1 = name <;> simp [hn, he]
      · have hb : (name' == e.1) = false := beq_eq_false_iff_ne.mpr hn
        have hb' : (name' == (if e.1 = name then (e.1, e.2.fill bytes file) else e).1) = false := by
          split <;> exact hb
        rw [hb, hb']
        exact ih
  exact key h.root.caches

theorem Host.cache_fill_of_ne {name name' : String} (hne : name' ≠ name) (file : CacheFile)
    (bytes : Bytes) : (h.fill name file bytes).cache name' = h.cache name' := by
  rw [h.cache_fill, if_neg hne]

theorem Host.cache_removeDir_of_ne {name name' : String} (hne : name' ≠ name) :
    (h.removeDir name).cache name' = h.cache name' := by
  have key : ∀ caches : List (String × CacheDir),
      List.lookup name' (caches.filter (fun e => e.1 ≠ name)) = List.lookup name' caches := by
    intro caches
    induction caches with
    | nil => rfl
    | cons e rest ih =>
      by_cases he : e.1 = name
      · have hb : (name' == e.1) = false := beq_eq_false_iff_ne.mpr (he ▸ hne)
        rw [List.filter_cons_of_neg (by simpa using he), ih, List.lookup_cons, hb]
      · rw [List.filter_cons_of_pos (by simpa using he), List.lookup_cons, List.lookup_cons, ih]
  exact key h.root.caches

/-- Directories change by making, filling and removing them. -/
theorem Event.cache_apply (e : Event) (name : String) :
    (e.apply h).cache name = match e with
      | .madeDir name' => (h.makeDir name').cache name
      | .filled name' file bytes => (h.fill name' file bytes).cache name
      | .removedDir name' => (h.removeDir name').cache name
      | _ => h.cache name := by
  cases e with
  | installing call => cases hc : call.effective <;> simp [Event.apply, hc, Host.cache]
  | _ => rfl

end Apply

/-! ## The floor -/

section Floor

variable (P : Platform)

/-- The floor rejects a release: an older version or an older sequence. -/
def UpdateLedger.Rejects (l : UpdateLedger) (version : String) (sequence : Nat) : Prop :=
  ∃ floor candidate, P.semver l.floorVersion = .ok floor ∧ P.semver version = .ok candidate ∧
    (candidate < floor ∨ sequence < l.floorSequence)

/-- The floor lets a release pass. -/
def UpdateLedger.Clears (l : UpdateLedger) (version : String) (sequence : Nat) : Prop :=
  ∃ floor candidate, P.semver l.floorVersion = .ok floor ∧ P.semver version = .ok candidate ∧
    floor ≤ candidate ∧ l.floorSequence ≤ sequence

/-- The floor has reached a release. -/
def UpdateLedger.Covers (l : UpdateLedger) (version : String) (sequence : Nat) : Prop :=
  ∃ floor candidate, P.semver l.floorVersion = .ok floor ∧ P.semver version = .ok candidate ∧
    candidate ≤ floor ∧ sequence ≤ l.floorSequence

/-- **The order of floors**: versions by semantic-version order, sequences as
numbers. -/
structure UpdateLedger.FloorLe (l l' : UpdateLedger) : Prop where
  version : ∀ a, P.semver l.floorVersion = .ok a → ∃ b, P.semver l'.floorVersion = .ok b ∧ a ≤ b
  sequence : l.floorSequence ≤ l'.floorSequence

/-- Two ledgers with one floor. -/
structure UpdateLedger.SameFloor (l l' : UpdateLedger) : Prop where
  version : l'.floorVersion = l.floorVersion
  sequence : l'.floorSequence = l.floorSequence

variable {P} {l l' l'' : UpdateLedger} {version : String} {sequence : Nat}

theorem UpdateLedger.FloorLe.refl (l : UpdateLedger) : l.FloorLe P l :=
  ⟨fun a ha => ⟨a, ha, le_refl a⟩, le_refl _⟩

theorem UpdateLedger.FloorLe.trans (h : l.FloorLe P l') (h' : l'.FloorLe P l'') :
    l.FloorLe P l'' := by
  refine ⟨fun a ha => ?_, h.sequence.trans h'.sequence⟩
  obtain ⟨b, hb, hab⟩ := h.version a ha
  obtain ⟨c, hc, hbc⟩ := h'.version b hb
  exact ⟨c, hc, hab.trans hbc⟩

theorem UpdateLedger.SameFloor.le (h : l.SameFloor l') : l.FloorLe P l' :=
  ⟨fun a ha => ⟨a, h.version ▸ ha, le_refl a⟩, h.sequence.ge⟩

/-- What a floor rejects, a higher one does. -/
theorem UpdateLedger.FloorLe.rejects (h : l.FloorLe P l') (hr : l.Rejects P version sequence) :
    l'.Rejects P version sequence := by
  obtain ⟨floor, candidate, hf, hc, hlt⟩ := hr
  obtain ⟨floor', hf', hle⟩ := h.version floor hf
  exact ⟨floor', candidate, hf', hc,
    hlt.imp (fun hlt => hlt.trans_le hle) (fun hlt => hlt.trans_le h.sequence)⟩

/-- What a floor has reached, a higher one has. -/
theorem UpdateLedger.FloorLe.covers (h : l.FloorLe P l') (hc : l.Covers P version sequence) :
    l'.Covers P version sequence := by
  obtain ⟨floor, candidate, hf, hv, hle, hs⟩ := hc
  obtain ⟨floor', hf', hle'⟩ := h.version floor hf
  exact ⟨floor', candidate, hf', hv, hle.trans hle', hs.trans h.sequence⟩

/-- A floor does not both reject a release and let it pass. -/
theorem UpdateLedger.Clears.not_rejects (h : l.Clears P version sequence) :
    ¬ l.Rejects P version sequence := by
  rintro ⟨floor', candidate', hf', hc', hlt⟩
  obtain ⟨floor, candidate, hf, hc, hle, hs⟩ := h
  cases hf.symm.trans hf'
  cases hc.symm.trans hc'
  rcases hlt with hlt | hlt
  · exact absurd hle (not_le.mpr hlt)
  · omega

variable (P)

/-- The anti-rollback check: a release passes the floor, or the override
admits it. -/
def Config.Admitted (config : Config) (l : UpdateLedger) (version : String) (sequence : Nat) :
    Prop := config.admits version = true ∨ l.Clears P version sequence

/-- A receipt that `remember_consumed_nonce` may drop. -/
structure Config.Prunes (config : Config) (l : UpdateLedger) (r : ConsumedRequest) : Prop where
  noOverride : config.updates.emergencyVersion = none
  rejected : l.Rejects P r.version r.sequence

variable {P} {config : Config} {r : ConsumedRequest}

theorem Config.Prunes.mono (h : config.Prunes P l r) (hle : l.FloorLe P l') :
    config.Prunes P l' r := ⟨h.noOverride, hle.rejects h.rejected⟩

/-- **A release whose receipt may be dropped is not admitted.** -/
theorem Config.Prunes.not_admitted (h : config.Prunes P l r) :
    ¬ config.Admitted P l r.version r.sequence := by
  rintro (ha | hc)
  · rw [Config.admits, h.noOverride] at ha
    exact absurd ha (by simp)
  · exact hc.not_rejects h.rejected

end Floor

/-! ## Packages -/

section Packages

variable (P : Platform)

/-- **A package the local policy vouches for**: its bytes are the signed
ones, for this target and installer, under a key of the keyring that is not
revoked. -/
structure Config.Vouches (config : Config) (m : ReleaseManifest) (bytes : Bytes) : Prop where
  size : bytes.length = m.sizeBytes
  digest : P.sha256 bytes = m.sha256
  platform : m.platform = P.targetTriple
  kind : config.updates.packageKind = some m.packageKind
  signed : ∃ key ∈ config.updates.trustedKeys, key.id = m.keyId ∧ key.revoked = false ∧
    ∃ encoded verifying signature, decodeHex 32 key.publicKey = .ok encoded ∧
      P.verifyingKey encoded = .ok verifying ∧
      P.verifyStrict verifying m.canonical signature = true

/-- A directory that holds a release: its signed manifest, and an artifact of
the size and digest it names. -/
def CacheDir.Holds (d : CacheDir) (m : ReleaseManifest) : Prop :=
  ∃ text signed artifact, d.manifest = some text ∧ P.readSigned text = some signed ∧
    signed.manifest = m ∧ d.artifact = some artifact ∧ artifact.length = m.sizeBytes ∧
    P.sha256 artifact = m.sha256

/-- A release whose directory exists and holds it. -/
def Host.Stores (h : Host) (r : CachedRelease) : Prop :=
  ∃ d, h.cache r.directory = some d ∧ d.Holds P r.manifest

theorem Journal.names_eq_false {j : Journal} {name : String} :
    j.names name = false ↔ ∀ r ∈ j.releases, r.directory ≠ name := by
  rw [Journal.names, List.any_eq_false]
  simp

theorem Journal.mem_releases {j : Journal} {r : CachedRelease} :
    r ∈ j.releases ↔ j.active = some r ∨ ∃ q, j.pending = some q ∧ q.release = r := by
  simp [Journal.releases, eq_comm]

end Packages

/-! ## What the past says -/

/-- The receipt under which the next forward installation runs: the one last
reserved by an acceptance and not yet used. -/
def reserved : Past Host Event → Option ConsumedRequest
  | [] => none
  | (.wroteJournal (.reserve _ true receipt) _, _) :: _ => some receipt
  | (.installing ⟨.forward _, _, _, _, _⟩, _) :: _ => none
  | _ :: past => reserved past

/-- The acknowledgement the supervisor has just read. -/
def lastAck : Past Host Event → Option HealthAck
  | [] => none
  | (.sawHealth ack, _) :: _ => some ack
  | (.passStarted, _) :: _ => none
  | (.installing _, _) :: _ => none
  | (.wroteLedger _ _, _) :: _ => none
  | (.wroteJournal _ _, _) :: _ => none
  | _ :: past => lastAck past

/-- Since the last commit, `health.json` has been removed. -/
def cleared : Past Host Event → Bool
  | [] => false
  | (.wroteMailbox .removeHealth, _) :: _ => true
  | (.wroteLedger (.commit _ _) _, _) :: _ => false
  | _ :: past => cleared past

/-! ## The rules -/

section Rules

variable (P : Platform)

/-- The ledger has finished a transaction, with this outcome. -/
def UpdateLedger.Finished (l : UpdateLedger) (receipt : ConsumedRequest) (outcome : String) :
    Prop :=
  l.pending = none ∧ ∃ last, l.history.getLast? = some last ∧ last.receipt = receipt ∧
    last.outcome = outcome

/-- The ledger has this transaction pending. -/
def UpdateLedger.Awaits (l : UpdateLedger) (receipt : ConsumedRequest) : Prop :=
  ∃ p, l.pending = some p ∧ p.receipt = receipt

/-- No transaction is in the journal, but for one the ledger has recorded as
rolled back. -/
def Host.Quiet (h : Host) : Prop :=
  ∀ q, h.journal.pending = some q → (h.ledger P).Finished q.receipt "rolled_back"

/-- `remember_consumed_nonce` writes the journal. -/
structure Reserves (config : Config) (h : Host) (receipt : ConsumedRequest) (j : Journal) :
    Prop where
  active : j.active = h.journal.active
  recorded : receipt ∈ j.consumed
  nodup : (j.consumed.map ConsumedRequest.nonce).Nodup
  kept : ∀ r ∈ h.journal.consumed, r ∈ j.consumed ∨ config.Prunes P (h.ledger P) r

/-- ... for a request that is being accepted: one that no receipt on disk
bars, of a release the floor or the override admits. -/
structure Accepts (config : Config) (h : Host) (receipt : ConsumedRequest) (j : Journal) :
    Prop extends Reserves P config h receipt j where
  quiet : h.Quiet P
  idle : (h.ledger P).pending = none
  pending : j.pending = none
  unbarred : ∀ r ∈ h.journal.consumed, r.nonce = receipt.nonce → config.Prunes P (h.ledger P) r
  admitted : config.Admitted P (h.ledger P) receipt.version receipt.sequence

/-- ... for a release that has been accepted before: the active one, the one
only the ledger has pending, or the one the journal has pending. -/
structure Renews (config : Config) (h : Host) (receipt : ConsumedRequest) (j : Journal) :
    Prop extends Reserves P config h receipt j where
  pending : j.pending = h.journal.pending
  fresh : ∀ r ∈ j.consumed, r ∈ h.journal.consumed ∨ r = receipt
  known : h.journal.pending = none ∧
      (∃ a, h.journal.active = some a ∧ receipt = a.manifest.receipt a.directory) ∨
    h.journal.pending = none ∧ (h.ledger P).Awaits receipt ∨
    ∃ q, h.journal.pending = some q ∧ receipt = q.receipt

/-- `accept_request_with` enters the transaction into the journal. -/
structure Enlists (past : Past Host Event) (h : Host) (q : Pending) : Prop where
  idle : h.journal.pending = none
  awaited : (h.ledger P).Awaits q.receipt
  consumed : q.receipt ∈ h.journal.consumed
  directory : q.release.directory = q.nonce
  stored : h.Stores P q.release
  cleared : cleared past = true

/-- A finished transaction leaves the journal. -/
structure Settles (h : Host) (q : Pending) (outcome : String) (j : Journal) : Prop where
  pending : h.journal.pending = some q
  finished : (h.ledger P).Finished q.receipt outcome
  journal : j = h.journal.settled outcome q.release

/-- `seed` makes a release the active one. -/
structure Activates (h : Host) (r : CachedRelease) : Prop where
  idle : h.journal.pending = none
  settled : (h.ledger P).pending = none
  stored : h.Stores P r
  installed : r.manifest.version = h.installed.version
  covered : (h.ledger P).Covers P r.manifest.version r.manifest.sequence

/-- `commit_pending` for a reserved request. -/
structure Commits (config : Config) (past : Past Host Event) (h : Host) (p : PendingUpdate) :
    Prop where
  idle : (h.ledger P).pending = none
  journal : h.journal.pending = none
  reserved : reserved past = some p.receipt
  consumed : p.receipt ∈ h.journal.consumed
  admitted : config.Admitted P (h.ledger P) p.version p.sequence
  previous : ∃ a, h.journal.active = some a ∧ a.manifest.version ≠ p.version ∧
    a.directory ≠ p.nonce
  unrefused : config.admits p.version = true ∨
    ∀ r ∈ (h.ledger P).history, r.failed = true → r.version = p.version →
      r.sequence ≠ p.sequence

/-- `arm_health` restarts the window of the pending transaction. -/
structure Arms (h : Host) (p : PendingUpdate) (l : UpdateLedger) : Prop where
  pending : (h.ledger P).pending = some p
  enlisted : ∃ q, h.journal.pending = some q ∧ q.receipt = p.receipt
  ledger : ∃ startedAt deadline,
    l = (h.ledger P).awaiting { p with startedAt, deadline }

/-- `finish_update` closes the pending transaction. -/
structure Closes (config : Config) (h : Host) (p : PendingUpdate) (r : HistoryEntry)
    (l : UpdateLedger) : Prop where
  pending : (h.ledger P).pending = some p
  receipt : r.receipt = p.receipt
  closed : l.pending = none
  history : l.history = appendHistory config.updates.historyLimit (h.ledger P).history r
  room : 1 ≤ config.updates.historyLimit

/-- ... as healthy: the acknowledgement just read satisfies its window. -/
structure Promotes (config : Config) (past : Past Host Event) (h : Host) (p : PendingUpdate)
    (r : HistoryEntry) (l : UpdateLedger) : Prop extends Closes P config h p r l where
  outcome : r.outcome = "healthy"
  enlisted : ∃ q, h.journal.pending = some q ∧ q.receipt = p.receipt
  acknowledged : ∃ ack, lastAck past = some ack ∧ ack.accepts p = true
  raised : (h.ledger P).FloorLe P l
  covered : l.Covers P p.version p.sequence

/-- ... as rolled back: interrupted before the journal named it, or with the
previous package installed again. -/
structure Abandons (config : Config) (h : Host) (p : PendingUpdate) (r : HistoryEntry)
    (l : UpdateLedger) : Prop extends Closes P config h p r l where
  outcome : r.outcome = "rolled_back"
  floor : (h.ledger P).SameFloor l
  undone : h.journal.pending = none ∧ r.reason = "interrupted_before_install" ∨
    ∃ q a, h.journal.pending = some q ∧ q.receipt = p.receipt ∧ h.journal.active = some a ∧
      h.installed = a.manifest

/-- `seed` raises the floor. -/
structure Raises (h : Host) (m : ReleaseManifest) (l : UpdateLedger) : Prop where
  pending : (h.ledger P).pending = none
  unpended : l.pending = none
  history : l.history = (h.ledger P).history
  raised : (h.ledger P).FloorLe P l
  covered : l.Covers P m.version m.sequence

/-- A package goes forward to the installer: both documents name its
transaction, its receipt was reserved for this installation, and the floor or
the override admits it. -/
structure Advances (past : Past Host Event) (h : Host) (config : Config) (m : ReleaseManifest)
    (nonce : String) : Prop where
  awaited : (h.ledger P).Awaits (m.receipt nonce)
  enlisted : ∃ q, h.journal.pending = some q ∧ q.release.manifest = m ∧ q.nonce = nonce
  reserved : reserved past = some (m.receipt nonce)
  admitted : config.Admitted P (h.ledger P) m.version m.sequence

/-- The previous package goes back to the installer, for a transaction both
documents name. -/
structure Retreats (h : Host) (m : ReleaseManifest) (nonce : String) : Prop where
  enlisted : ∃ q, h.journal.pending = some q ∧ q.nonce = nonce ∧
    (h.ledger P).Awaits q.receipt
  previous : ∃ a, h.journal.active = some a ∧ a.manifest = m

variable (Configs : Config → Prop)

/-- **The events the supervisor may cause**, from a host `h` with its past,
when the processes run under configurations of `Configs`. -/
inductive Permitted (past : Past Host Event) (h : Host) : Event → Prop where
  | endpoint (now : Nat) (act : EndpointAct) : Permitted past h (.endpoint now act)
  | passStarted : Permitted past h .passStarted
  | sawHealth {ack : HealthAck} (read : h.shared.health = some ack) :
      Permitted past h (.sawHealth ack)
  | wroteMailbox (write : MailboxWrite) : Permitted past h (.wroteMailbox write)
  | restarting : Permitted past h .restarting
  | madeDir {name : String} (absent : h.cache name = none) : Permitted past h (.madeDir name)
  | filled {name : String} (free : h.journal.names name = false) (file : CacheFile)
      (bytes : Bytes) : Permitted past h (.filled name file bytes)
  | removedDir {name : String} (free : h.journal.names name = false) :
      Permitted past h (.removedDir name)
  | accept {config : Config} {receipt : ConsumedRequest} {j : Journal} (inForce : Configs config)
      (rule : Accepts P config h receipt j) :
      Permitted past h (.wroteJournal (.reserve config true receipt) j)
  | renew {config : Config} {receipt : ConsumedRequest} {j : Journal} (inForce : Configs config)
      (rule : Renews P config h receipt j) :
      Permitted past h (.wroteJournal (.reserve config false receipt) j)
  | enlist {q : Pending} (rule : Enlists P past h q) :
      Permitted past h (.wroteJournal (.enlist q) { h.journal with pending := some q })
  | rearm {q : Pending} (pending : h.journal.pending = some q) (startedAt : Nat) :
      Permitted past h
        (.wroteJournal .rearm { h.journal with pending := some { q with startedAt } })
  | settle {q : Pending} {outcome : String} {j : Journal} (rule : Settles P h q outcome j) :
      Permitted past h (.wroteJournal .settle j)
  | activate {r : CachedRelease} (rule : Activates P h r) :
      Permitted past h (.wroteJournal (.activate r) { h.journal with active := some r })
  | commit {config : Config} {p : PendingUpdate} (inForce : Configs config)
      (rule : Commits P config past h p) :
      Permitted past h (.wroteLedger (.commit config p) ((h.ledger P).awaiting p))
  | arm {p : PendingUpdate} {l : UpdateLedger} (rule : Arms P h p l) :
      Permitted past h (.wroteLedger .arm l)
  | promote {config : Config} {p : PendingUpdate} {r : HistoryEntry} {l : UpdateLedger}
      (inForce : Configs config) (rule : Promotes P config past h p r l) :
      Permitted past h (.wroteLedger (.record config r) l)
  | abandon {config : Config} {p : PendingUpdate} {r : HistoryEntry} {l : UpdateLedger}
      (inForce : Configs config) (rule : Abandons P config h p r l) :
      Permitted past h (.wroteLedger (.record config r) l)
  | raise {m : ReleaseManifest} {l : UpdateLedger} (rule : Raises P h m l) :
      Permitted past h (.wroteLedger (.raise m) l)
  | advance {config : Config} {m : ReleaseManifest} {bytes : Bytes} {nonce : String}
      (effective : Bool) (inForce : Configs config) (vouched : config.Vouches P m bytes)
      (rule : Advances P past h config m nonce) :
      Permitted past h (.installing ⟨.forward nonce, config, m, bytes, effective⟩)
  | retreat {config : Config} {m : ReleaseManifest} {bytes : Bytes} {nonce : String}
      (effective : Bool) (inForce : Configs config) (vouched : config.Vouches P m bytes)
      (rule : Retreats P h m nonce) :
      Permitted past h (.installing ⟨.rollback nonce, config, m, bytes, effective⟩)

/-- One step of the supervisor or its environment. -/
def SupervisorStep (past : Past Host Event) (h : Host) (e : Event) (h' : Host) : Prop :=
  Permitted P Configs past h e ∧ h' = e.apply h

/-- **The histories of the supervisor**, from a host it has not run on. -/
abbrev Supervised : Past Host Event → Host → Prop := History Fresh (SupervisorStep P Configs)

end Rules

end Lariska
