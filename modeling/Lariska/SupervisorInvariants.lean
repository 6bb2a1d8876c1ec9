import Lariska.SupervisorWrites

/-!
# Invariants of the documents

Most programs of the supervisor write neither the journal nor the ledger. An
invariant that only reads the two documents, the `journal` variable and the
script is kept by all of them, for the same reason each time: it survives the
next turn of the script, and every event that is not such a write. An
invariant with these two properties is `Documental`, and below it is kept by
each program that writes no document.
-/

namespace Lariska

open Prog (lift need ensure attempt guarded)

/-- The event writes the journal or the ledger. -/
def Event.writesDocument : Event → Bool
  | .wroteJournal _ _ => true
  | .wroteLedger _ _ => true
  | _ => false

theorem Event.journal_kept {e : Event} {h : Host} (he : e.writesDocument = false) :
    (e.apply h).journal = h.journal := by
  rw [Event.journal_apply]
  cases e <;> first | rfl | cases he

theorem Event.ledger_kept {e : Event} {h : Host} (he : e.writesDocument = false) (P : Platform) :
    (e.apply h).ledger P = h.ledger P := by
  rw [Event.ledger_apply]
  cases e <;> first | rfl | cases he

/-- **An invariant that only a write of a document, or of the `journal`
variable, can break.** -/
structure Documental (I : World → Prop) : Prop where
  turns : ∀ {w : World} {t : Turn} {script : List Turn}, w.script = t :: script → I w →
    I { w with script }
  events : ∀ {w : World} {e : Event}, e.writesDocument = false → I w → I (w.happen e)

namespace Documental

variable {I : World → Prop} (hI : Documental I)

include hI

theorem happens {e : Event} (he : e.writesDocument = false) : (happen e).Keeps I :=
  Prog.keeps_modify fun _ hi => hI.events he hi

theorem acts (now : Nat) (acts : List EndpointAct) {w : World} (hi : I w) :
    I (acts.foldl (fun w act => w.happen (.endpoint now act)) w) := by
  induction acts generalizing w with
  | nil => exact hi
  | cons act acts ih => exact ih (hI.events rfl hi)

theorem turn : turn.Keeps I := by
  intro w hi
  unfold Prog.Leads Lariska.turn
  cases hs : w.script with
  | nil => exact hi
  | cons t script =>
    have hacts := hI.acts t.now t.acts (hI.turns hs hi)
    cases hf : t.fate with
    | killed => simpa [hf] using hacts
    | _ => simpa [hf] using hacts

theorem step : step.Keeps I := by
  refine hI.turn.bind fun t => ?_
  cases t.fate with
  | failed _ => exact Prog.keeps_fail _
  | _ => exact Prog.keeps_pure t

theorem perform {e : Event} (he : e.writesDocument = false) : (perform e).Keeps I :=
  hI.step.bind fun _ => hI.happens he

theorem inspect : inspect.Keeps I :=
  hI.step.bind fun _ => Prog.keeps_get.bind fun _ => Prog.keeps_pure _

theorem unixNow : unixNow.Keeps I := hI.step.bind fun _ => Prog.keeps_pure _

theorem clockNow : clockNow.Keeps I := by
  refine hI.turn.bind fun t => ?_
  cases t.fate with
  | _ => exact Prog.keeps_pure _

omit hI in
theorem ignores {m : Act Unit} (h : m.Keeps I) : (ignore m).Keeps I :=
  (Prog.keeps_attempt h).bind fun _ => Prog.keeps_pure ()

/-! ## Reading -/

variable (P : Platform)

theorem readLedger : (readLedger P).Keeps I := by
  refine hI.inspect.bind fun h => ?_
  cases h.root.ledger with
  | none => exact Prog.keeps_pure _
  | some ledger => exact Prog.keeps_lift.bind fun _ => Prog.keeps_pure _

theorem readJournal : (readJournal P).Keeps I := by
  refine hI.inspect.bind fun h => ?_
  cases h.root.journal with
  | none => exact Prog.keeps_pure _
  | some ledger => exact Prog.keeps_lift.bind fun _ => Prog.keeps_pure _

theorem readManifest (directory : String) : (readManifest P directory).Keeps I :=
  hI.inspect.bind fun _ => Prog.keeps_need.bind fun _ => Prog.keeps_ensure.bind fun _ =>
    Prog.keeps_need

theorem verifyManifestInner (config : Config) (signed : SignedManifest) (recovery : Bool) :
    (verifyManifestInner P config signed recovery).Keeps I := by
  refine Prog.keeps_lift.bind fun _ => ?_
  dsimp only
  refine Prog.keeps_ite (fun _ => Prog.keeps_lift) fun _ => ?_
  exact hI.unixNow.bind fun _ => Prog.keeps_ensure.bind fun _ => Prog.keeps_lift

theorem verifyManifest (config : Config) (signed : SignedManifest) :
    (verifyManifest P config signed).Keeps I := by
  refine (hI.verifyManifestInner P config signed false).bind fun _ => ?_
  refine (hI.readLedger P).bind fun _ => ?_
  exact Prog.keeps_lift.bind fun _ => Prog.keeps_lift.bind fun _ =>
    Prog.keeps_ensure.bind fun _ => Prog.keeps_ensure

theorem verifyArtifact (config : Config) (signed : SignedManifest) (directory : String) :
    (verifyArtifact P config signed directory).Keeps I := by
  refine Prog.keeps_ensure.bind fun _ => hI.inspect.bind fun _ => Prog.keeps_need.bind fun _ => ?_
  refine Prog.keeps_ensure.bind fun _ => hI.inspect.bind fun _ => Prog.keeps_need.bind fun _ => ?_
  exact Prog.keeps_ensure.bind fun _ => Prog.keeps_ensure

theorem verifyFiles (config : Config) (directory : String) :
    (verifyFiles P config directory).Keeps I :=
  (hI.readManifest P directory).bind fun signed =>
    (hI.verifyManifest P config signed).bind fun _ =>
      (hI.verifyArtifact P config signed directory).bind fun _ => Prog.keeps_pure _

theorem verifyFilesForRecovery (config : Config) (directory : String) :
    (verifyFilesForRecovery P config directory).Keeps I :=
  (hI.readManifest P directory).bind fun signed =>
    (hI.verifyManifestInner P config signed true).bind fun _ =>
      (hI.verifyArtifact P config signed directory).bind fun _ => Prog.keeps_pure _

omit P in
theorem verifySignatureNative : verifySignatureNative.Keeps I :=
  hI.step.bind fun _ => Prog.keeps_pure ()

omit P in
theorem incomingRequests : incomingRequests.Keeps I := hI.inspect.bind fun _ => Prog.keeps_pure _

omit P in
theorem installedAgentVersion : installedAgentVersion.Keeps I :=
  hI.inspect.bind fun _ => Prog.keeps_pure _

omit P in
theorem healthStatusForPending (pending : PendingUpdate) :
    (healthStatusForPending pending).Keeps I := by
  refine Prog.keeps_lift.bind fun _ => ?_
  have hread : (Lariska.step *> Lariska.inspect).Keeps I := hI.step.bind fun _ => hI.inspect
  refine (Prog.keeps_attempt hread).bind fun found => ?_
  cases found with
  | error fault => exact Prog.keeps_pure false
  | ok h =>
    dsimp only
    cases h.shared.health with
    | none => exact Prog.keeps_pure false
    | some ack =>
      refine (hI.happens rfl).bind fun _ => Prog.keeps_ite (fun _ => ?_) fun _ => ?_
      · exact hI.unixNow.bind fun _ => Prog.keeps_pure _
      · exact Prog.keeps_pure false

/-! ## The mailbox, the installer and the package directories -/

omit P in
theorem publishPendingHealth (pending : PendingUpdate) : (publishPendingHealth pending).Keeps I :=
  hI.step.bind fun _ => (hI.perform rfl).bind fun _ => hI.perform rfl

omit P in
theorem ackRequest (nonce outcome : String) : (ackRequest nonce outcome).Keeps I :=
  Prog.keeps_lift.bind fun _ => Prog.keeps_ensure.bind fun _ => hI.step.bind fun _ =>
    hI.unixNow.bind fun _ => hI.perform rfl

omit P in
theorem removeMailbox :
    (ignore (do
      let _ ← Lariska.step
      ignore (Lariska.perform (.wroteMailbox .removePending))
      ignore (Lariska.perform (.wroteMailbox .removeHealth)))).Keeps I :=
  ignores (hI.step.bind fun _ => (ignores (hI.perform rfl)).bind fun _ =>
    ignores (hI.perform rfl))

omit P in
theorem install (site : Site) (config : Config) (manifest : ReleaseManifest)
    (directory : String) : (install site config manifest directory).Keeps I := by
  refine hI.turn.bind fun t => Prog.keeps_get.bind fun _ => Prog.keeps_need.bind fun _ => ?_
  cases t.fate with
  | failed _ => exact (hI.happens rfl).bind fun _ => Prog.keeps_fail _
  | _ => exact hI.happens rfl

omit P in
theorem restart : restart.Keeps I := by
  refine hI.turn.bind fun t => (hI.happens rfl).bind fun _ => ?_
  cases t.fate with
  | failed _ => exact Prog.keeps_fail _
  | _ => exact Prog.keeps_pure _

omit P in
theorem removeDir (name : String) : (removeDir name).Keeps I := hI.perform rfl

omit P in
theorem copyBounded (source : Host → Option Bytes) (dest : String) (file : CacheFile)
    (limit : Nat) : (copyBounded source dest file limit).Keeps I :=
  hI.inspect.bind fun _ => Prog.keeps_need.bind fun _ => (hI.happens rfl).bind fun _ =>
    Prog.keeps_ensure.bind fun _ => hI.step.bind fun _ => Prog.keeps_pure _

omit P in
theorem copyRequest (manifest artifact : Host → Option Bytes) (dest : String)
    (maxBytes : Nat) : (copyRequest manifest artifact dest maxBytes).Keeps I := by
  refine hI.inspect.bind fun _ => Prog.keeps_ensure.bind fun _ => (hI.happens rfl).bind fun _ => ?_
  refine Prog.keeps_guarded (hI.removeDir dest) ?_
  exact (hI.copyBounded manifest dest .manifest _).bind fun _ =>
    (hI.copyBounded artifact dest .artifact _).bind fun _ =>
      hI.step.bind fun _ => Prog.keeps_pure _

omit P in
theorem pruneEntries (journal : Journal) (names : List String) :
    (pruneEntries journal names).Keeps I := by
  induction names with
  | nil => exact Prog.keeps_pure ()
  | cons name names ih =>
    refine hI.step.bind fun _ => ?_
    dsimp only
    refine Prog.keeps_ite (fun _ => ?_) fun _ => ih
    exact (hI.removeDir name).bind fun _ => ih

omit P in
theorem pruneCache : pruneCache.Keeps I :=
  hI.inspect.bind fun _ => (Prog.keeps_get.bind fun _ => Prog.keeps_pure _).bind fun _ =>
    hI.pruneEntries _ _

end Documental

theorem keeps_getJournal {I : World → Prop} : getJournal.Keeps I :=
  Prog.keeps_get.bind fun _ => Prog.keeps_pure _

/-- **Going on after a program that only reads, with an invariant.** -/
theorem Observes.then_keeping {α β : Type} {m : Act α} {f : α → Act β} {w : World}
    {Q : α → Prop} {I : World → Prop} {K : β → World → Prop} {E : Fault → World → Prop}
    (h : Observes m w Q) (hm : m.Keeps I) (hi : I w)
    (hK : ∀ a w', Calm w w' → Q a → I w' → (f a).Leads w' K E I)
    (hE : ∀ fault w', Calm w w' → I w' → E fault w') : (m >>= f).Leads w K E I :=
  Prog.Leads.then_keeping h hm hi (fun a w' ha hi' => hK a w' ha.1 ha.2 hi') hE

/-- Performing a write that is kept wherever it takes place. -/
theorem perform_keeps {I : World → Prop} (hI : Documental I) {w : World} (hi : I w) {e : Event}
    (hwrite : ∀ w', Calm w w' → I w' → I (w'.happen e)) :
    (perform e).Leads w (fun _ => I) (fun _ => I) I :=
  observes_step.then_keeping hI.step hi
    (fun _ w' hc _ hi' => Prog.leads_modify.mpr (hwrite w' hc hi')) (fun _ _ _ hi' => hi')

/-! ## Writes that neither begin nor end a transaction -/

/-- **An invariant that neither a receipt nor the ledger's transaction
breaks**: other receipts in the variable, the variable written with a receipt,
and the ledger written for another reason than a record. -/
structure Carried (I : World → Prop) : Prop extends Documental I where
  carrying : ∀ {w : World} (consumed : List ConsumedRequest), I w →
    I (w.holding (w.journal.carrying consumed))
  reserves : ∀ {w : World} {config : Config} {accepting : Bool} {receipt : ConsumedRequest}, I w →
    I (w.happen (.wroteJournal (.reserve config accepting receipt) w.journal))
  ledger : ∀ {w : World} {why : LedgerWrite} (l : UpdateLedger),
    (∀ config r, why ≠ .record config r) → I w → I (w.happen (.wroteLedger why l))

namespace Carried

variable {I : World → Prop} (hI : Carried I) {P : Platform} {config : Config}

include hI

omit hI in
/-- What follows the `journal` variable may use that it has been read. -/
theorem getJournal_then {β : Type} {f : Journal → Act β}
    (hf : ∀ w, I w → (f w.journal).Leads w (fun _ => I) (fun _ => I) I) :
    (getJournal >>= f).Keeps I := fun w hi =>
  observes_getJournal.then_keeping keeps_getJournal hi
    (fun j w' hc hj hi' => by
      subst hj
      rw [← hc.journal]
      exact hf w' hi') (fun _ _ _ hi' => hi')

theorem setJournal_carrying {w : World} (hi : I w) (consumed : List ConsumedRequest) :
    (setJournal { w.journal with consumed }).Leads w (fun _ => I) (fun _ => I) I :=
  Prog.leads_modify.mpr (hI.carrying consumed hi)

theorem pruneReceipts : (pruneReceipts P).Keeps I := by
  refine (hI.readLedger P).bind fun l => ?_
  cases P.semver l.floorVersion with
  | error e => exact Prog.keeps_fail _
  | ok floor =>
    refine getJournal_then fun w hi => ?_
    refine observes_lift.then_keeping Prog.keeps_lift hi (fun consumed w' hc _ hi' => ?_)
      (fun _ _ _ hi' => hi')
    rw [← hc.journal]
    exact hI.setJournal_carrying hi' consumed

theorem pushReceipt (accepting : Bool) (receipt : ConsumedRequest) :
    (do
      let journal ← getJournal
      refuse (journal.consumed.length < maxRequests)
        "native consumed request history is full; administrator repair is required before accepting another update"
      setJournal { journal with consumed := journal.consumed ++ [receipt] }
      writeJournal (.reserve config accepting receipt)).Keeps I := by
  have hwrite : (writeJournal (.reserve config accepting receipt)).Keeps I := by
    refine getJournal_then fun w hi => ?_
    refine observes_refuse.then_keeping Prog.keeps_ensure hi (fun _ w' hc _ hi' => ?_)
      (fun _ _ _ hi' => hi')
    rw [← hc.journal]
    refine perform_keeps hI.toDocumental hi' fun w'' hc'' hi'' => ?_
    rw [← hc''.journal]
    exact hI.reserves hi''
  refine getJournal_then fun w hi => ?_
  refine observes_refuse.then_keeping Prog.keeps_ensure hi (fun _ w' hc _ hi' => ?_)
    (fun _ _ _ hi' => hi')
  rw [← hc.journal]
  exact Prog.leads_bind.mpr ((hI.setJournal_carrying hi' _).imp fun _ w'' hi'' => hwrite w'' hi'')

theorem rememberConsumedNonce (accepting : Bool) (receipt : ConsumedRequest) :
    (rememberConsumedNonce P config accepting receipt).Keeps I := by
  refine Prog.keeps_ensure.bind fun _ => Prog.keeps_lift.bind fun _ => ?_
  refine keeps_getJournal.bind fun j => ?_
  dsimp only
  cases j.consumed.find? (fun r => r.nonce == receipt.nonce) with
  | some previous => exact Prog.keeps_ensure
  | none =>
    exact Prog.keeps_ite (fun _ => hI.pruneReceipts.bind fun _ => hI.pushReceipt accepting receipt)
      fun _ => hI.pushReceipt accepting receipt

theorem commitPending (manifest : ReleaseManifest) (nonce : String) :
    (commitPending P config manifest nonce).Keeps I := by
  refine Prog.keeps_lift.bind fun _ => (hI.readLedger P).bind fun ledger => ?_
  refine Prog.keeps_ensure.bind fun _ => hI.unixNow.bind fun now => ?_
  refine Prog.keeps_need.bind fun deadline => hI.step.bind fun _ => ?_
  refine Prog.Keeps.bind (fun w h => ?_) fun _ => hI.publishPendingHealth _
  exact perform_keeps hI.toDocumental h fun _ _ h' => hI.ledger _ (by simp) h'

theorem armHealth (nonce : String) : (armHealth P config nonce).Keeps I := by
  refine Prog.keeps_lift.bind fun _ => (hI.readLedger P).bind fun ledger => ?_
  refine Prog.keeps_need.bind fun pending => Prog.keeps_ensure.bind fun _ => ?_
  refine hI.unixNow.bind fun now => Prog.keeps_need.bind fun deadline => ?_
  refine Prog.Keeps.bind (fun w h => ?_) fun _ => (hI.publishPendingHealth _).bind fun _ =>
    Prog.keeps_pure _
  exact perform_keeps hI.toDocumental h fun _ _ h' => hI.ledger _ (by simp) h'

end Carried

/-! ## Effects that fail -/

section Faults

variable {B : Fault → Prop}

theorem turn_faults : turn.Faults B := by
  intro w
  unfold Prog.Leads turn
  cases w.script with
  | nil => trivial
  | cons t script => cases hf : t.fate <;> simp [hf]

/-- An effect fails with an error of the system only. -/
theorem step_faults (hB : ∀ detail, B (.os detail)) : step.Faults B :=
  turn_faults.bind fun t => by
    cases t.fate with
    | failed _ => exact Prog.faults_fail (hB _)
    | _ => exact Prog.faults_pure t

theorem perform_faults (hB : ∀ detail, B (.os detail)) (e : Event) : (perform e).Faults B :=
  (step_faults hB).bind fun _ => Prog.faults_modify

end Faults

/-! ## Effects that end well -/

/-- The world in which an effect of the turn takes place. -/
def World.after (w : World) (t : Turn) (script : List Turn) : World :=
  t.acts.foldl (fun w act => w.happen (.endpoint t.now act)) { w with script }

theorem World.after_root (w : World) (t : Turn) (script : List Turn) :
    (w.after t script).host.root = w.host.root := (calm_acts t.now t.acts { w with script }).root

/-- Going on after a part that returns. -/
theorem andThen_ok {α β : Type} {m : Act α} {f : α → Act β} {w w' : World} {a : α}
    (h : m w = (.ok a, w')) : (m >>= f) w = f a w' := by
  show Prog.andThen m f w = _
  unfold Prog.andThen
  rw [h]

section Done

variable {w : World} {t : Turn} {script : List Turn}

/-- A turn that ends well has only let the endpoint act. -/
theorem step_done (hs : w.script = t :: script) (hf : t.fate = .done) :
    step w = (.ok t, w.after t script) := by
  show Prog.andThen turn _ w = _
  unfold Prog.andThen turn
  simp only [hs, hf]
  rfl

theorem inspect_done (hs : w.script = t :: script) (hf : t.fate = .done) :
    inspect w = (.ok (w.after t script).host, w.after t script) :=
  andThen_ok (step_done hs hf)

end Done

end Lariska
