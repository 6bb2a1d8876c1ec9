import Lariska.SupervisorRuns
import Lariska.SupervisorInvariants

/-!
# Which releases are recorded as failed

A transaction is recorded as rolled back for one of two reasons: it was
interrupted before the installation, or the package it installed has to go.
Whether the package ever reached the installer is not stored; the journal
entry, written before the installation, stands for it. So a process that is
killed after the entry, or whose acknowledgement of the request fails there,
leaves an entry without an installation, and the next pass of the supervisor
takes it for a release that was installed.

Within one pass the order is as it should be (`recorded_after_install`), and
from it, when no pass starts with such an entry, every failure on record is
of a release that was handed to the installer.
-/

namespace Lariska

open Prog (lift need ensure attempt guarded)

variable {P : Platform} {Configs : Config → Prop} {config : Config} {w : World}

/-! ## What was handed to the installer -/

/-- The event hands the package of this transaction to the installer. -/
def Event.hands (receipt : ConsumedRequest) : Event → Bool
  | .installing ⟨.forward nonce, _, manifest, _, _⟩ => manifest.receipt nonce == receipt
  | _ => false

/-- The package of this transaction has been handed to the installer. -/
def handed (past : Past Host Event) (receipt : ConsumedRequest) : Bool :=
  past.any fun entry => entry.1.hands receipt

theorem handed_cons {past : Past Host Event} {receipt : ConsumedRequest} (e : Event) (h : Host)
    (hh : handed past receipt = true) : handed ((e, h) :: past) receipt = true := by
  unfold handed at *
  rw [List.any_cons, hh, Bool.or_true]

/-- An entry has been made in the journal, and since then neither was its
package handed to the installer nor did a pass start. -/
def unhanded : Past Host Event → Bool
  | [] => false
  | (.wroteJournal (.enlist _) _, _) :: _ => true
  | (.installing ⟨.forward _, _, _, _, _⟩, _) :: _ => false
  | (.passStarted, _) :: _ => false
  | _ :: past => unhanded past

/-- A failure is recorded only when no entry is waiting for the installer. -/
def Event.RecordsInTurn (past : Past Host Event) : Event → Prop
  | .wroteLedger (.record _ r) _ => r.failed = true → unhanded past = false
  | _ => True

/-- **A pass starts with a transaction in the journal only if its package has
been handed to the installer.** -/
def Event.StartsHanded (past : Past Host Event) (h : Host) : Event → Prop
  | .passStarted => ∀ q ∈ h.journal.pending, handed past q.receipt = true
  | _ => True

instance (past : Past Host Event) (h : Host) (e : Event) : Decidable (e.StartsHanded past h) := by
  unfold Event.StartsHanded
  split
  · infer_instance
  · infer_instance

/-- Every failure in the history is of a transaction whose package was handed
to the installer. -/
def Host.FailedHanded (P : Platform) (past : Past Host Event) (h : Host) : Prop :=
  ∀ r ∈ (h.ledger P).history, r.failed = true → handed past r.receipt = true

/-! ## Within one pass -/

/-- The records so far came in turn. -/
def InTurn (w : World) : Prop := Throughout (fun past _ e => e.RecordsInTurn past) w.trace

/-- ... and no entry is waiting for the installer. -/
def Clear (w : World) : Prop := InTurn w ∧ unhanded w.trace = false

/-- **An invariant that only an entry into the journal and a record can
break.** -/
structure Undecided (I : World → Prop) : Prop extends Documental I where
  holding : ∀ {w : World} (j : Journal), I w → I (w.holding j)
  journal : ∀ {w : World} {why : JournalWrite} (j : Journal), (∀ q, why ≠ .enlist q) → I w →
    I (w.happen (.wroteJournal why j))
  ledger : ∀ {w : World} {why : LedgerWrite} (l : UpdateLedger),
    (∀ config r, why ≠ .record config r) → I w → I (w.happen (.wroteLedger why l))

theorem InTurn.happen {e : Event} (h : InTurn w) (he : e.RecordsInTurn w.trace) :
    InTurn (w.happen e) := throughout_cons.mpr ⟨he, h⟩

theorem undecided_inTurn : Undecided InTurn where
  turns := fun _ h => h
  events := by
    intro w e he h
    refine h.happen ?_
    cases e with
    | wroteLedger why l => cases he
    | _ => trivial
  holding := fun _ h => h
  journal := fun _ _ h => h.happen trivial
  ledger := by
    intro w why l hwhy h
    refine h.happen ?_
    cases why with
    | record config r => exact absurd rfl (hwhy config r)
    | _ => trivial

/-- Events other than an entry leave nothing waiting. -/
theorem unhanded_cons_eq_false {past : Past Host Event} {e : Event} {h : Host}
    (he : ∀ q j, e ≠ .wroteJournal (.enlist q) j) (hp : unhanded past = false) :
    unhanded ((e, h) :: past) = false := by
  unfold unhanded
  split
  · rfl
  · next heq =>
    cases heq
    exact absurd rfl (he _ _)
  · rfl
  · rfl
  · next heq =>
    cases heq
    exact hp

theorem undecided_clear : Undecided Clear where
  turns := fun _ h => h
  events := by
    intro w e he h
    refine ⟨undecided_inTurn.events he h.1, unhanded_cons_eq_false ?_ h.2⟩
    rintro q j rfl
    cases he
  holding := fun _ h => h
  journal := by
    intro w why j hwhy h
    refine ⟨undecided_inTurn.journal j hwhy h.1, unhanded_cons_eq_false ?_ h.2⟩
    rintro q j ⟨⟩
    exact hwhy q rfl
  ledger := by
    intro w why l hwhy h
    refine ⟨undecided_inTurn.ledger l hwhy h.1, unhanded_cons_eq_false ?_ h.2⟩
    rintro q j ⟨⟩

namespace Undecided

variable {I : World → Prop} (hI : Undecided I)

include hI

theorem setJournal (j : Journal) : (setJournal j).Keeps I :=
  Prog.keeps_modify fun _ h => hI.holding j h

theorem writeJournal {why : JournalWrite} (hwhy : ∀ q, why ≠ .enlist q) :
    (writeJournal why).Keeps I := by
  refine keeps_getJournal.bind fun j => Prog.keeps_ensure.bind fun _ => ?_
  exact fun w h => perform_keeps hI.toDocumental h fun _ _ h' => hI.journal j hwhy h'

theorem carried : Carried I where
  toDocumental := hI.toDocumental
  carrying := fun _ h => hI.holding _ h
  reserves := fun h => hI.journal _ (by simp) h
  ledger := hI.ledger

theorem activateSeed (directory : String) : (activateSeed P config directory).Keeps I := by
  refine (hI.verifyFiles P config directory).bind fun manifest => ?_
  refine hI.installedAgentVersion.bind fun installed => Prog.keeps_ite (fun _ => ?_) fun _ => ?_
  · exact (Documental.ignores (hI.removeDir directory)).bind fun _ => Prog.keeps_fail _
  refine hI.verifySignatureNative.bind fun _ => (hI.readLedger P).bind fun ledger => ?_
  refine Prog.keeps_lift.bind fun raised => Prog.Keeps.bind (fun w h => ?_) fun _ => ?_
  · exact perform_keeps hI.toDocumental h fun _ _ h' => hI.ledger _ (by simp) h'
  · exact keeps_getJournal.bind fun j => (hI.setJournal _).bind fun _ => hI.writeJournal (by simp)

theorem seed (manifest artifact : Option Bytes) :
    (seed P config manifest artifact).Keeps I := by
  have hcopy : (do
      let t ← Lariska.turn
      let directory := "seed-" ++ toString t.random
      Lariska.copyRequest (fun _ => manifest) (fun _ => artifact) directory
        config.updates.maxDownloadBytes
      guarded (Lariska.removeDir directory) (Lariska.activateSeed P config directory)
      Lariska.pruneCache).Keeps I :=
    hI.turn.bind fun t => (hI.copyRequest _ _ _ _).bind fun _ =>
      (Prog.keeps_guarded (hI.removeDir _) (hI.activateSeed _)).bind fun _ => hI.pruneCache
  refine hI.step.bind fun _ => (hI.readJournal P).bind fun j => (hI.setJournal j).bind fun _ => ?_
  refine Prog.keeps_ensure.bind fun _ => ?_
  cases j.active with
  | none => exact hcopy
  | some active =>
    dsimp only
    refine Prog.keeps_ite (fun _ => ?_) fun _ => hcopy
    exact (hI.carried.rememberConsumedNonce false _).bind fun _ => hcopy

end Undecided

/-! ## The operations that record -/

theorem finishUpdate_clear (nonce : String) (healthy : Bool) (reason : String) :
    (finishUpdate P config nonce healthy reason).Keeps Clear := by
  have hI : Undecided Clear := undecided_clear
  refine Prog.keeps_lift.bind fun _ => (hI.readLedger P).bind fun ledger => ?_
  refine Prog.keeps_need.bind fun pending => Prog.keeps_ensure.bind fun _ => ?_
  refine hI.unixNow.bind fun now => Prog.keeps_lift.bind fun raised => ?_
  refine Prog.Keeps.bind (fun w h => ?_) fun _ => hI.removeMailbox
  refine perform_keeps hI.toDocumental h fun _ _ h' => ⟨h'.1.happen fun _ => h'.2, ?_⟩
  exact unhanded_cons_eq_false (by simp) h'.2

theorem rollbackWith_clear (reason : String) : (rollbackWith P config reason).Keeps Clear := by
  have hI : Undecided Clear := undecided_clear
  refine keeps_getJournal.bind fun j => ?_
  refine Prog.keeps_need.bind fun pending => Prog.keeps_need.bind fun previous => ?_
  refine (hI.verifyFilesForRecovery P config _).bind fun manifest => ?_
  refine hI.verifySignatureNative.bind fun _ => (hI.install _ _ _ _).bind fun _ => ?_
  refine hI.restart.bind fun _ => (finishUpdate_clear _ false reason).bind fun _ => ?_
  exact (hI.setJournal _).bind fun _ => (hI.writeJournal (by simp)).bind fun _ => hI.pruneCache

theorem completeFinished_clear (ledger : UpdateLedger) (pending : Pending) :
    (completeFinished P config ledger pending).Keeps Clear := by
  have hI : Undecided Clear := undecided_clear
  unfold completeFinished
  cases ledger.history.getLast? with
  | none => exact Prog.keeps_fail _
  | some last =>
    refine Prog.keeps_ite (fun _ => ?_) fun _ => Prog.keeps_fail _
    refine Prog.keeps_ensure.bind fun _ => (hI.carried.rememberConsumedNonce false _).bind fun _ => ?_
    refine keeps_getJournal.bind fun j => (hI.setJournal _).bind fun _ => ?_
    exact (hI.writeJournal (by simp)).bind fun _ => hI.pruneCache

theorem superviseHealth_clear (pending : Pending) (authoritative : PendingUpdate) :
    (superviseHealth P config pending authoritative).Keeps Clear := by
  have hI : Undecided Clear := undecided_clear
  have hwatch : (do
      let now ← clockNow
      if now ≥ authoritative.deadline then
        rollbackWith P config "healthy_heartbeat_timeout"
      else pure () : Act Unit).Keeps Clear :=
    hI.clockNow.bind fun now => Prog.keeps_ite (fun _ => rollbackWith_clear _) fun _ =>
      Prog.keeps_pure ()
  refine Prog.keeps_ensure.bind fun _ => (hI.carried.rememberConsumedNonce false _).bind fun _ => ?_
  refine (Prog.keeps_attempt (hI.healthStatusForPending _)).bind fun status => ?_
  match status with
  | .ok true =>
    refine (finishUpdate_clear _ true "healthy_heartbeat").bind fun _ => ?_
    refine keeps_getJournal.bind fun j => (hI.setJournal _).bind fun _ => ?_
    exact (hI.writeJournal (by simp)).bind fun _ => hI.pruneCache
  | .ok false => exact hwatch
  | .error _ => exact hwatch

theorem recoverOrAckWith_clear : (recoverOrAckWith P config).Keeps Clear := by
  have hI : Undecided Clear := undecided_clear
  refine (hI.readLedger P).bind fun ledger => keeps_getJournal.bind fun j => ?_
  cases j.pending with
  | none =>
    cases ledger.pending with
    | none => exact Prog.keeps_pure ()
    | some interrupted =>
      exact (hI.carried.rememberConsumedNonce false _).bind fun _ => finishUpdate_clear _ false _
  | some pending =>
    cases ledger.pending with
    | none => exact completeFinished_clear ledger pending
    | some authoritative => exact superviseHealth_clear pending authoritative

/-! ## Accepting a request -/

/-- Until the entry is written, and by writing it, the records stay in turn. -/
theorem enlistRequest_inTurn (nonce : String) (previous : CachedRelease) :
    (enlistRequest P config nonce previous).Keeps InTurn := by
  have hI : Undecided InTurn := undecided_inTurn
  have hcommit : ∀ manifest : ReleaseManifest, (do
      let _ ← verifySignatureNative
      let _ ← rememberConsumedNonce P config true (manifest.receipt nonce)
      let _ ← commitPending P config manifest nonce
      let started ← clockNow
      let journal ← getJournal
      let _ ← setJournal { journal with pending := some ⟨⟨manifest, nonce⟩, nonce, started⟩ }
      let _ ← writeJournal (.enlist ⟨⟨manifest, nonce⟩, nonce, started⟩)
      pure manifest : Act ReleaseManifest).Keeps InTurn := by
    intro manifest
    refine hI.verifySignatureNative.bind fun _ => (hI.carried.rememberConsumedNonce true _).bind fun _ => ?_
    refine (hI.carried.commitPending manifest nonce).bind fun _ => hI.clockNow.bind fun started => ?_
    refine keeps_getJournal.bind fun j => (hI.setJournal _).bind fun _ => ?_
    refine Prog.Keeps.bind (keeps_getJournal.bind fun j' => ?_) fun _ => Prog.keeps_pure _
    refine Prog.keeps_ensure.bind fun _ w h => ?_
    exact perform_keeps hI.toDocumental h fun _ _ h' => h'.happen trivial
  refine (hI.verifyFiles P config nonce).bind fun manifest => Prog.keeps_ensure.bind fun _ => ?_
  dsimp only
  refine Prog.keeps_ite (fun _ => hcommit manifest) fun _ => ?_
  exact (hI.readLedger P).bind fun _ => Prog.keeps_ensure.bind fun _ => hcommit manifest

/-- **Once the installer is called nothing is waiting**, and it is called: the
directory holds an artifact. -/
theorem install_clear {nonce directory : String} {m : ReleaseManifest} (h : InTurn w)
    (verified : w.host.Verified P config directory m) :
    (install (.forward nonce) config m directory).Leads w (fun _ => Clear) (fun _ => Clear)
      InTurn := by
  have hI : Undecided InTurn := undecided_inTurn
  obtain ⟨d, artifact, hd, -, ha, -⟩ := verified
  have hturn : turn.Leads w (fun _ w' => Calm w w' ∧ InTurn w') (fun _ _ => False) InTurn :=
    ((observes_turn.and (hI.turn w h)).with_faults turn_faults).mono
      (fun _ _ ht => ⟨ht.1.1, ht.2⟩) (fun _ _ ht => ht.2) (fun _ ht => ht.2)
  refine Prog.leads_bind.mpr (hturn.mono (fun t w₁ h₁ => ?_) (fun _ _ hf => hf.elim) fun _ h => h)
  refine Prog.leads_bind.mpr (Prog.leads_get.mpr ?_)
  have hbytes : (w₁.host.cache directory).bind CacheDir.artifact = some artifact := by
    rw [h₁.1.host_cache, hd, Option.bind_some, ha]
  refine Prog.leads_bind.mpr (Prog.leads_need.mpr ⟨fun bytes _ => ?_, fun hnone => ?_⟩)
  · have hclear : ∀ effective,
        Clear (w₁.happen (.installing ⟨.forward nonce, config, m, bytes, effective⟩)) :=
      fun _ => ⟨h₁.2.happen trivial, rfl⟩
    cases t.fate with
    | failed effective =>
      exact Prog.leads_bind.mpr (Prog.leads_modify.mpr ((Prog.leads_fail _).mpr (hclear effective)))
    | _ => exact Prog.leads_modify.mpr (hclear true)
  · rw [hbytes] at hnone
    cases hnone

theorem installRequest_clear {nonce : String} {m : ReleaseManifest} (h : InTurn w)
    (he : Enlisted P Configs config nonce m w) :
    (installRequest P config nonce m).Leads w (fun _ => Clear) (fun _ => Clear) InTurn := by
  have hI : Undecided Clear := undecided_clear
  have hrest : (do
      let armed ← armHealth P config nonce
      let journal ← getJournal
      setJournal { journal with
        pending := journal.pending.map (fun p => { p with startedAt := armed.startedAt }) }
      writeJournal .rearm
      restart : Act Unit).Keeps Clear :=
    (hI.carried.armHealth nonce).bind fun armed => keeps_getJournal.bind fun j =>
      (hI.setJournal _).bind fun _ => (hI.writeJournal (by simp)).bind fun _ => hI.restart
  refine Prog.leads_bind.mpr ((install_clear h he.verified).imp fun _ w₁ h₁ => ?_)
  exact (hrest w₁ h₁).mono (fun _ _ h => h) (fun _ _ h => h) (fun _ h => h.1)

theorem acceptRequestWith_inTurn {nonce : String} (hl : Loaded P Configs config)
    (hi : Idle P Configs config w) (h : InTurn w) :
    (acceptRequestWith P config nonce).Leads w (fun _ => InTurn) (fun _ => InTurn) InTurn := by
  have hI : Undecided InTurn := undecided_inTurn
  refine observes_refuse.then_keeping Prog.keeps_ensure h (fun _ w₁ hc₁ _ h₁ => ?_)
    (fun _ _ _ h => h)
  refine observes_getJournal.then_keeping keeps_getJournal h₁ (fun j w₂ hc₂ hj h₂ => ?_)
    (fun _ _ _ h => h)
  refine observes_refuse.then_keeping Prog.keeps_ensure h₂ (fun _ w₃ hc₃ hfresh h₃ => ?_)
    (fun _ _ _ h => h)
  refine observes_need.then_keeping Prog.keeps_need h₃ (fun previous w₄ hc₄ hprevious h₄ => ?_)
    (fun _ _ _ h => h)
  refine (verifyFilesForRecovery_observes P config _).then_keeping
    (hI.verifyFilesForRecovery P config _) h₄ (fun _ w₅ hc₅ _ h₅ => ?_) (fun _ _ _ h => h)
  have hc := (((hc₁.trans hc₂).trans hc₃).trans hc₄).trans hc₅
  have hj : j = w.journal := hj.trans hc₁.journal
  subst hj
  refine Prog.Leads.then_keeping (copyRequest_leads (hi.valid.calm hc)) (hI.copyRequest _ _ _ _) h₅
    (fun _ w₆ hk₆ h₆ => ?_) (fun _ _ _ h => h)
  obtain ⟨⟨hv₆, hd₆⟩, hnames⟩ := hk₆
  have hi₆ : Idle P Configs config w₆ := (hi.calm hc).sameDocs hd₆ hv₆
  have hj₆ : w₆.journal = w.journal := hd₆.journal.trans hc.journal
  have henlists : (enlistRequest P config nonce previous).Keeps InTurn :=
    enlistRequest_inTurn nonce previous
  have henlist := (enlistRequest_leads nonce previous hl hi₆ (by rw [hj₆]; exact hfresh)
    (by rw [hj₆, hprevious]) hnames).and (henlists w₆ h₆)
  refine Prog.leads_bind.mpr (Prog.leads_guarded (henlist.mono (fun m w₇ h₇ => ?_)
    (fun _ w₇ h₇ => hI.removeDir nonce w₇ h₇.2) (fun _ h => h.2)))
  refine (ackRequest_observes nonce "accepted").then_keeping (hI.ackRequest nonce "accepted") h₇.2
    (fun _ w₈ hc₈ _ h₈ => ?_) (fun _ _ _ h => h)
  refine Prog.leads_bind.mpr (Prog.leads_attempt.mpr ((installRequest_clear h₈
    (h₇.1.calm hc₈)).mono (fun _ w₉ h₉ => ?_) (fun fault w₉ h₉ => ?_) (fun _ h => h)))
  · exact (Prog.leads_pure _).mpr h₉.1
  · refine Prog.leads_bind.mpr ((rollbackWith_clear _ w₉ h₉).mono (fun _ w' h' => ?_)
      (fun _ _ h' => h'.1) (fun _ h' => h'.1))
    exact (Prog.leads_fail _).mpr h'.1

/-! ## The loop and the processes -/

theorem acceptAll_inTurn (hl : Loaded P Configs config) (entries : List String) :
    ∀ (examined : List String) (w : World), Idle P Configs config w → InTurn w →
      (acceptAll P config examined entries).Leads w (fun _ => InTurn) (fun _ => InTurn)
        InTurn := by
  have hI : Undecided InTurn := undecided_inTurn
  induction entries with
  | nil => exact fun _ w _ h => (Prog.leads_pure _).mpr h
  | cons entry rest ih =>
    intro examined w hi h
    unfold acceptAll
    refine Prog.leads_ite (fun _ => ih examined w hi h) (fun _ => ?_)
    refine Prog.leads_bind.mpr (Prog.leads_get.mpr ?_)
    have next : ∀ w₂ examined', Resting P Configs config w₂ → InTurn w₂ →
        (do
          let journal ← getJournal
          if journal.pending ≠ none then pure examined'
          else acceptAll P config examined' rest).Leads w₂ (fun _ => InTurn) (fun _ => InTurn)
          InTurn := by
      intro w₂ examined' hr h₂
      refine observes_getJournal.then_keeping keeps_getJournal h₂
        (fun journal w₃ hc₃ hjournal h₃ => ?_) (fun _ _ _ h => h)
      refine Prog.leads_ite (fun _ => (Prog.leads_pure _).mpr h₃) (fun hp => ?_)
      rw [not_not, hjournal] at hp
      exact ih _ w₃ ((hr.2.resolve_left fun hne => hne hp).calm hc₃) h₃
    dsimp only
    refine Prog.leads_bind.mpr (Prog.leads_attempt.mpr (((acceptRequestWith_leads hl hi).and
      (acceptRequestWith_inTurn hl hi h)).mono (fun _ w₂ h₂ => next w₂ _ h₂.1 h₂.2)
      (fun _ w₂ h₂ => ?_) (fun _ h => h.2)))
    refine Observes.then_keeping (observes_ignore fun _ => ackRequest_observes entry "refused")
      (Documental.ignores (hI.ackRequest entry "refused")) h₂.2
      (fun _ w₃ hc₃ _ h₃ => next w₃ _ (h₂.1.calm hc₃) h₃) (fun _ _ _ h => h)

/-- **A pass starts with nothing waiting**, so its recovery records in turn;
and each request it accepts is installed before it can be recorded. -/
theorem supervisePass_inTurn (hl : Loaded P Configs config) (hv : Valid P Configs w)
    (h : InTurn w) (examined : List String) :
    (supervisePass P config examined).Leads w (fun _ => InTurn) (fun _ => InTurn) InTurn := by
  have hI : Undecided Clear := undecided_clear
  have hv₁ : Valid P Configs (w.happen .passStarted) := hv.happen .passStarted
  have h₁ : Clear (w.happen .passStarted) := ⟨h.happen trivial, rfl⟩
  refine Prog.leads_bind.mpr (Prog.leads_modify.mpr ?_)
  refine Prog.leads_bind.mpr (((readJournal_observes P).and (hI.readJournal P _ h₁)).mono
    (fun journal w₂ h₂ => ?_) (fun _ _ h => h.2.1) (fun _ h => h.2.1))
  obtain ⟨⟨hc₂, hjournal⟩, h₂⟩ := h₂
  have hs₂ : Settled P Configs (w₂.holding journal) := by
    refine ⟨(hv₁.calm hc₂).holding _, ?_⟩
    rw [World.holding_journal, World.holding_host, hjournal, hc₂.host_journal]
  refine Prog.leads_bind.mpr (Prog.leads_modify.mpr ?_)
  refine Prog.leads_bind.mpr (((recoverOrAckWith_leads hl hs₂).and (recoverOrAckWith_clear _
    (hI.holding journal h₂))).mono (fun _ w₃ h₃ => ?_) (fun _ _ h => h.2.1) (fun _ h => h.2.1))
  obtain ⟨hs₃, h₃⟩ := h₃
  refine Prog.leads_bind.mpr (((pruneCache_leads hs₃.valid (by rw [hs₃.synced])).and
    (hI.pruneCache w₃ h₃)).mono (fun _ w₄ h₄ => ?_) (fun _ _ h => h.2.1) (fun _ h => h.2.1))
  obtain ⟨hk₄, h₄⟩ := h₄
  have hs₄ := hs₃.sameDocs hk₄.2 hk₄.1
  have hT : Undecided InTurn := undecided_inTurn
  refine observes_getJournal.then_keeping keeps_getJournal h₄.1
    (fun journal' w₅ hc₅ hjournal' h₅ => ?_) (fun _ _ _ h => h)
  refine Prog.leads_ite (fun _ => (Prog.leads_pure _).mpr h₅) (fun hnone => ?_)
  rw [not_not, hjournal', ← hc₅.journal] at hnone
  refine incomingRequests_observes.then_keeping hT.incomingRequests h₅
    (fun entries w₆ hc₆ _ h₆ => ?_) (fun _ _ _ h => h)
  have hs₅ := hs₄.calm hc₅
  exact acceptAll_inTurn hl entries examined w₆
    ((Idle.of_eq hs₅.valid hs₅.synced hnone).calm hc₆) h₆

theorem supervise_inTurn (hl : Loaded P Configs config) (passes : Nat) :
    ∀ (examined : List String) (w : World), Valid P Configs w → InTurn w →
      (supervise P config passes examined).Leads w (fun _ => InTurn) (fun _ => InTurn)
        InTurn := by
  induction passes with
  | zero => exact fun _ w _ h => (Prog.leads_pure _).mpr h
  | succ passes ih =>
    intro examined w hv h
    exact Prog.leads_bind.mpr (((supervisePass_leads hl hv examined).and
      (supervisePass_inTurn hl hv h examined)).mono (fun examined' w' h' => ih examined' w' h'.1 h'.2)
      (fun _ _ h' => h'.2) (fun _ h' => h'.2))

theorem program_inTurn {command : Command} (hin : Configs command.config)
    (hv : Valid P (Loaded P Configs) w) (h : InTurn w) :
    (command.program P).Leads w (fun _ => InTurn) (fun _ => InTurn) InTurn := by
  have hI : Undecided InTurn := undecided_inTurn
  refine observes_lift.then_keeping Prog.keeps_lift h (fun _ w₁ hc₁ hsound h₁ => ?_)
    (fun _ _ _ h => h)
  have hl : Loaded P (Loaded P Configs) command.config := ⟨⟨hin, hsound⟩, hsound⟩
  cases command with
  | seed config manifest artifact => exact hI.seed manifest artifact w₁ h₁
  | supervise config passes =>
    refine observes_step.then_keeping hI.step h₁ (fun _ w₂ hc₂ _ h₂ => ?_) (fun _ _ _ h => h)
    exact supervise_inTurn hl passes [] w₂ (hv.calm (hc₁.trans hc₂)) h₂

theorem runAll_inTurn (processes : List (Command × List Turn))
    (hin : ∀ process ∈ processes, Configs process.1.config) :
    ∀ {past : Past Host Event} {h : Host}, Supervised P (Loaded P Configs) past h →
      Throughout (fun past _ e => e.RecordsInTurn past) past →
      Throughout (fun past _ e => e.RecordsInTurn past) (runAll P processes past h).1 := by
  induction processes with
  | nil => exact fun _ h => h
  | cons process rest ih =>
    intro past h hs hturn
    have hlaunch : Supervised P (Loaded P Configs) (launch P process.1 process.2 past h).1
        (launch P process.1 process.2 past h).2 :=
      Prog.Leads.final (program_leads (hin process List.mem_cons_self)
        (w := ⟨h, Journal.empty, process.2, past⟩) hs)
    refine ih (fun p hp => hin p (List.mem_cons_of_mem _ hp)) hlaunch ?_
    exact Prog.Leads.final (program_inTurn (hin process List.mem_cons_self)
      (w := ⟨h, Journal.empty, process.2, past⟩) hs hturn)

/-- **In every run a failure is recorded only when no entry is waiting for the
installer**: between an entry and a failure, the package was handed over or a
new pass has started. -/
theorem Run.recorded_after_install (P : Platform) (r : Run) :
    Throughout (fun past _ e => e.RecordsInTurn past) (r.past P) :=
  have hin : ∀ process ∈ r.processes, r.Uses process.1.config :=
    fun process hp => ⟨process, hp, rfl⟩
  runAll_inTurn r.processes hin (.start rfl) (throughout_nil _)

/-! ## Whole runs -/

/-- **What the steps keep**, when no pass starts with an entry that was not
handed over: the entry in the journal is waiting or was handed over, and the
failures in the history were. -/
structure InstallsKept (P : Platform) (past : Past Host Event) (h : Host) : Prop where
  journal : ∀ q, h.journal.pending = some q →
    unhanded past = true ∨ handed past q.receipt = true
  history : h.FailedHanded P past

variable {past : Past Host Event} {h : Host} {e : Event}

/-- A step that leaves the history alone and the entry, or takes it away. -/
theorem InstallsKept.congr {h' : Host} (hk : InstallsKept P past h)
    (hpend : ∀ q', h'.journal.pending = some q' →
      handed ((e, h) :: past) q'.receipt = true ∨
      unhanded ((e, h) :: past) = unhanded past ∧
        ∃ q, h.journal.pending = some q ∧ q.receipt = q'.receipt)
    (hhist : (h'.ledger P).history = (h.ledger P).history) :
    InstallsKept P ((e, h) :: past) h' := by
  refine ⟨fun q' hq' => ?_, fun r hr hfailed => ?_⟩
  · obtain hh | ⟨heq, q, hq, hreceipt⟩ := hpend q' hq'
    · exact .inr hh
    · obtain hu | hh := hk.journal q hq
      · exact .inl (heq.trans hu)
      · exact .inr (handed_cons e h (hreceipt ▸ hh))
  · exact handed_cons e h (hk.history r (hhist ▸ hr) hfailed)

theorem mem_appendHistory {limit : Nat} {history : List HistoryEntry} {record r : HistoryEntry}
    (hr : r ∈ appendHistory limit history record) : r ∈ history ∨ r = record :=
  (List.mem_append.mp (List.mem_of_mem_drop hr)).imp_right List.mem_singleton.mp

/-- A record closes the transaction of the ledger. -/
theorem InstallsKept.close {config : Config} {p : PendingUpdate} {r : HistoryEntry}
    {l : UpdateLedger} (hk : InstallsKept P past h) (rule : Closes P config h p r l)
    (hr : r.failed = true → handed past r.receipt = true) :
    InstallsKept P ((.wroteLedger (.record config r) l, h) :: past) (h.setLedger l) := by
  refine ⟨fun q hq => (hk.journal q hq).imp id (handed_cons _ h), fun r' hr' hfailed => ?_⟩
  refine handed_cons _ h ?_
  have hmem : r' ∈ appendHistory config.updates.historyLimit (h.ledger P).history r :=
    rule.history ▸ hr'
  obtain hold | rfl := mem_appendHistory hmem
  · exact hk.history r' hold hfailed
  · exact hr hfailed

/-- **Every permitted step keeps it.** -/
theorem InstallsKept.keep (hk : InstallsKept P past h) (he : Permitted P Configs past h e)
    (hT : e.RecordsInTurn past) (hC : e.StartsHanded past h) :
    InstallsKept P ((e, h) :: past) (e.apply h) := by
  cases he with
  | passStarted => exact hk.congr (fun q hq => .inl (handed_cons _ h (hC q hq))) rfl
  | accept inForce rule =>
    exact hk.congr (fun q hq => absurd (rule.pending.symm.trans hq) (by simp)) rfl
  | renew inForce rule =>
    exact hk.congr (fun q hq => .inr ⟨rfl, q, rule.pending ▸ hq, rfl⟩) rfl
  | enlist rule => exact ⟨fun _ _ => .inl rfl, fun r hr hf => handed_cons _ h (hk.history r hr hf)⟩
  | rearm pending startedAt =>
    refine hk.congr (fun q hq => .inr ⟨rfl, _, pending, ?_⟩) rfl
    cases hq
    rfl
  | settle rule =>
    refine hk.congr (fun q hq => ?_) rfl
    rw [rule.journal] at hq
    cases hq
  | arm rule =>
    obtain ⟨startedAt, deadline, rfl⟩ := rule.ledger
    exact hk.congr (fun q hq => .inr ⟨rfl, q, hq, rfl⟩) rfl
  | promote inForce rule =>
    refine hk.close rule.toCloses fun hfailed => ?_
    rw [HistoryEntry.failed, rule.outcome] at hfailed
    exact absurd hfailed (by simp)
  | @abandon config p r l inForce rule =>
    refine hk.close rule.toCloses fun hfailed => ?_
    obtain ⟨-, hreason⟩ | ⟨q, a, hq, hreceipt, -, -⟩ := rule.undone
    · rw [HistoryEntry.failed, hreason] at hfailed
      exact absurd hfailed (by simp)
    · have hnone : unhanded past = false := hT hfailed
      rw [rule.receipt, ← hreceipt]
      exact (hk.journal q hq).resolve_left (by rw [hnone]; simp)
  | raise rule => exact hk.congr (fun q hq => .inr ⟨rfl, q, hq, rfl⟩) rule.history
  | @advance config m bytes nonce effective inForce vouched rule =>
    obtain ⟨q, hq, rfl, rfl⟩ := rule.enlisted
    have hhands : ∀ past, handed ((.installing ⟨.forward q.nonce, config, q.release.manifest, bytes,
        effective⟩, h) :: past) q.receipt = true := by
      intro past
      unfold handed
      rw [List.any_cons, Bool.or_eq_true]
      exact .inl (beq_self_eq_true _)
    have hjournal : ((Event.installing ⟨.forward q.nonce, config, q.release.manifest, bytes,
        effective⟩).apply h).journal = h.journal := Event.journal_apply h _
    refine hk.congr (fun q' hq' => .inl ?_) (congrArg _ (Event.ledger_apply P h _))
    rw [hjournal, hq] at hq'
    cases hq'
    exact hhands past
  | @retreat config m bytes nonce effective inForce vouched rule =>
    have hjournal : ((Event.installing ⟨.rollback nonce, config, m, bytes, effective⟩).apply
        h).journal = h.journal := Event.journal_apply h _
    refine hk.congr (fun q hq => .inr ⟨rfl, q, hjournal ▸ hq, rfl⟩)
      (congrArg _ (Event.ledger_apply P h _))
  | _ => exact hk.congr (fun q hq => .inr ⟨rfl, q, hq, rfl⟩) rfl

/-- **A release on record as failed was handed to the installer**, in every
state of a run in which no pass starts with a transaction in the journal that
was not. -/
theorem failed_records_were_installed (P : Platform) (r : Run)
    (hC : Throughout (fun past h e => e.StartsHanded past h) (r.past P)) :
    (r.host P).FailedHanded P (r.past P) ∧
      Throughout (fun past h _ => h.FailedHanded P past) (r.past P) := by
  have hs := r.supervised_uses P
  have hboth := hC.and (r.recorded_after_install P)
  have hkept : ∀ past h, Supervised P (Loaded P r.Uses) past h →
      Throughout (fun past h e => e.StartsHanded past h ∧ e.RecordsInTurn past) past →
      InstallsKept P past h := by
    intro past h hs hC
    refine History.invariant hs hC (fun h hfresh => ⟨fun q hq => ?_, fun r hr => ?_⟩) ?_
    · rw [Host.journal, hfresh] at hq
      cases hq
    · rw [Host.ledger, hfresh] at hr
      cases hr
    · rintro past h e _ hk hC ⟨he, rfl⟩
      exact hk.keep he hC.2 hC.1
  refine ⟨(hkept _ _ hs hboth).history, hs.throughout hboth hkept ?_⟩
  exact fun past h e _ hk _ _ => hk.history

/-! ## A transaction interrupted between its entry and the installer -/

section Interrupted

open Sample

/-- A release is accepted up to its entry in the journal; telling the endpoint
so fails, and the next pass comes after the deadline. -/
def unanswered : Run := on [
  (seeding none current, quietly 40),
  (supervising none 2, request nonce₁ newer :: quietly 32 ++ failed ::
    List.replicate 60 { quiet with now := 100000 })]

/-- The release is on record as one that failed its health window and is
refused from then on, and no package was ever handed to the installer. -/
theorem recorded_without_install :
    ((unanswered.host platform).ledger platform).history.map (·.reason)
        = ["healthy_heartbeat_timeout"] ∧
      ((unanswered.host platform).ledger platform).refuses newer.manifest = true ∧
      ¬ (unanswered.host platform).FailedHanded platform (unanswered.past platform) := by
  unfold Host.FailedHanded
  decide +kernel

/-- The installer reports a failure, and the transaction is undone. -/
def undone : Run := on [
  (seeding none current, quietly 40),
  (supervising none 1, request nonce₁ newer :: quietly 43 ++ failed :: quietly 40)]

theorem undone_was_installed :
    ((undone.host platform).ledger platform).history.any (·.failed) = true ∧
      (undone.host platform).FailedHanded platform (undone.past platform) := by
  have hrun : ((undone.host platform).ledger platform).history.any (·.failed) = true ∧
      Throughout (fun past h e => e.StartsHanded past h) (undone.past platform) := by
    decide +kernel
  exact ⟨hrun.1, (failed_records_were_installed platform undone hrun.2).1⟩

end Interrupted

end Lariska
