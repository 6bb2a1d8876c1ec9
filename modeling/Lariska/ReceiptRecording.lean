import Lariska.SupervisorRuns
import Lariska.SupervisorWrites
import Lariska.SupervisorInvariants

/-!
# Recording a receipt

`remember_consumed_nonce` on its own, for any journal its callers give it: what
it drops, what it records, and what an error leaves. The journal is written by
`atomic_json`, which replaces the document and then syncs the directory, so
that a write may be reported as failed after the document has been replaced.
The write here has that outcome as well.
-/

namespace Lariska

open Prog (lift need ensure)

variable (P : Platform)

/-! ## The write of the journal -/

/-- `atomic_json`, whose last step is to sync the directory: where that fails
the document is replaced all the same. -/
def replaceDocument (e : Event) : Act Unit := do
  let t ← turn
  match t.fate with
  | .failed true => do
    happen e
    Prog.fail (.os t.detail)
  | .failed false => Prog.fail (.os t.detail)
  | _ => happen e

/-- `write_journal` with that write. -/
def writeJournalSynced (why : JournalWrite) : Act Unit := do
  let j ← getJournal
  refuse (j.json.length ≤ maxJournalBytes) "native journal exceeds size limit"
  replaceDocument (.wroteJournal why j)

/-- `remember_consumed_nonce` with a write of the journal. -/
def recordReceipt (config : Config) (receipt : ConsumedRequest) (write : Act Unit) :
    Act Unit := do
  refuse (validNonce receipt.nonce = true ∧ receipt.version.utf8ByteSize ≤ 128)
    "invalid native consumed request identity"
  lift (discard (parseReceiptVersion P receipt.version))
  let journal ← getJournal
  match journal.consumed.find? (fun r => r.nonce == receipt.nonce) with
  | some previous =>
    refuse (previous.version = receipt.version ∧ previous.sequence = receipt.sequence)
      "consumed native request nonce changed its release identity"
  | none =>
    if config.updates.emergencyVersion = none then pruneReceipts P else pure ()
    let journal ← getJournal
    refuse (journal.consumed.length < maxRequests)
      "native consumed request history is full; administrator repair is required before accepting another update"
    setJournal { journal with consumed := journal.consumed ++ [receipt] }
    write

/-- With a write that happens as a whole or not at all it is the one the
supervisor's runs are made of. -/
theorem rememberConsumedNonce_eq (config : Config) (accepting : Bool) (receipt : ConsumedRequest) :
    rememberConsumedNonce P config accepting receipt
      = recordReceipt P config receipt (writeJournal (.reserve config accepting receipt)) := rfl

/-- `remember_consumed_nonce` with the write of `atomic_json`. -/
def rememberConsumedNonceSynced (config : Config) (accepting : Bool) (receipt : ConsumedRequest) :
    Act Unit :=
  recordReceipt P config receipt (writeJournalSynced (.reserve config accepting receipt))

/-! ## What is asked of it -/

/-- `verify_manifest` accepts no manifest of the version and the sequence of
the receipt, under this policy and the ledger of this host. -/
def Config.Bars (config : Config) (h : Host) (r : ConsumedRequest) : Prop :=
  ∀ signed : SignedManifest, signed.manifest.version = r.version →
    signed.manifest.sequence = r.sequence → ∀ w : World, w.host.ledger P = h.ledger P →
      (verifyManifest P config signed).Leads w (fun _ _ => False) (fun _ _ => True) fun _ => True

variable {P} {config : Config} {receipt : ConsumedRequest} {accepting : Bool} {w : World}

/-- A turn of the script reports the sync of the directory as failed. -/
def SyncFails (script : List Turn) (fault : Fault) : Prop :=
  ∃ t ∈ script, t.fate = .failed true ∧ fault = .os t.detail

/-- Receipts leave the variable and the file only where they may be pruned. -/
structure Loses (P : Platform) (config : Config) (w w' : World) : Prop where
  inMemory : ∀ r ∈ w.journal.consumed,
    r ∈ w'.journal.consumed ∨ config.Prunes P (w.host.ledger P) r
  onDisk : ∀ r ∈ w.host.journal.consumed,
    r ∈ w'.host.journal.consumed ∨ config.Prunes P (w.host.ledger P) r

/-- The variable has lost what may be pruned, the file nothing. -/
theorem Loses.of_calm {w' : World} {consumed : List ConsumedRequest}
    (hc : Calm (w.holding (w.journal.carrying consumed)) w')
    (hdrops : ∀ r ∈ w.journal.consumed, r ∈ consumed ∨ config.Prunes P (w.host.ledger P) r) :
    Loses P config w w' := by
  have hjournal : w'.journal = w.journal.carrying consumed := hc.journal
  have hfile : w'.host.journal = w.host.journal := hc.host_journal
  refine ⟨fun r hr => ?_, fun r hr => .inl (hfile ▸ hr)⟩
  rw [hjournal]
  exact hdrops r hr

/-- The variable is written. -/
theorem Loses.of_written {w' : World} {why : JournalWrite} {consumed : List ConsumedRequest}
    (ha : Ahead P config w) (hc : Calm (w.holding (w.journal.carrying consumed)) w')
    (hdrops : ∀ r ∈ w.journal.consumed, r ∈ consumed ∨ config.Prunes P (w.host.ledger P) r) :
    Loses P config w (w'.happen (.wroteJournal why (w.journal.carrying consumed))) := by
  have hjournal : w'.journal = w.journal.carrying consumed := hc.journal
  refine ⟨fun r hr => ?_, fun r hr => ?_⟩
  · rw [World.happen_journal, hjournal]
    exact hdrops r hr
  · rcases ha.kept r hr with hr | hr
    · exact hdrops r hr
    · exact .inr hr

/-- What an error leaves: the file as it was, or, where the sync failed, the
new one. -/
def LeftBehind (script : List Turn) (receipt : ConsumedRequest) (w : World) (fault : Fault)
    (w' : World) : Prop :=
  w'.host.root.journal = w.host.root.journal ∨
    SyncFails script fault ∧ w'.host.root.journal = some w'.journal ∧
      receipt ∈ w'.journal.consumed

theorem LeftBehind.of_calm {script : List Turn} {fault : Fault} {w' : World} {j : Journal}
    (hc : Calm (w.holding j) w') : LeftBehind script receipt w fault w' :=
  .inl (congrArg Root.journal hc.root)

namespace Sample

/-- A journal with the receipt of an older release, under the floor of the
current one. -/
def recordingHost : Host where
  root := ⟨some ⟨none, none, [older.manifest.receipt nonce₁]⟩,
    some ⟨current.version, current.sequence, none, []⟩, []⟩
  shared := ⟨none, none, none, []⟩
  installed := current.manifest

def recording (script : List Turn) : World := ⟨recordingHost, recordingHost.journal, script, []⟩

/-- A newer release is recorded, and the directory cannot be synced. -/
def replaced : Outcome Fault Unit × World :=
  rememberConsumedNonceSynced platform (Sample.config none) true (newer.manifest.receipt nonce₂)
    (recording [quiet, failed])

end Sample

end Lariska
