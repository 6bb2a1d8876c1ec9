import Lariska.InstallRecords

/-!
# A request that is refused half way

`accept_request_with` changes the private root in several steps, each of which
may fail. A step that fails before the journal entry leaves no transaction in
the journal, and from the installation on an error is answered by a rollback.
In between the endpoint is told that its request has been accepted, and an
error of that is returned as it is: the entry stays, of a package that was
never handed to the installer.
-/

namespace Lariska

open Prog (lift need ensure attempt guarded)

variable (P : Platform) (config : Config) (nonce : String)

/-! ## The parts -/

/-- `accept_request_with` up to its cleanup guard: the private copy is made. -/
def copyIncoming : Act CachedRelease := do
  refuse (validNonce nonce = true) "invalid request nonce"
  let journal ← getJournal
  refuse (∀ r ∈ journal.consumed, r.nonce ≠ nonce)
    "native request nonce was already consumed"
  let previous ← need journal.active
    (.text "seed the current signed package before enabling native updates")
  let _ ← verifyFilesForRecovery P config previous.directory
  copyRequest (requestFile nonce Request.manifest) (requestFile nonce Request.artifact)
    nonce config.updates.maxDownloadBytes
  pure previous

/-- ... up to the receipt. -/
def reserveRequest (previous : CachedRelease) : Act ReleaseManifest := do
  let manifest ← verifyFiles P config nonce
  refuse (manifest.version ≠ previous.manifest.version)
    "the requested version is already installed"
  if config.admits manifest.version then pure ()
  else
    let ledger ← readLedger P
    refuse (ledger.refuses manifest = false) "the requested release was already rolled back"
  verifySignatureNative
  rememberConsumedNonce P config true (manifest.receipt nonce)
  pure manifest

/-- ... up to the entry in the journal. -/
def enterRequest (manifest : ReleaseManifest) : Act ReleaseManifest := do
  commitPending P config manifest nonce
  let started ← clockNow
  let journal ← getJournal
  let pending : Pending := ⟨⟨manifest, nonce⟩, nonce, started⟩
  setJournal { journal with pending := some pending }
  writeJournal (.enlist pending)
  pure manifest

/-- The whole of it, up to the entry. -/
def takeUpRequest : Act ReleaseManifest :=
  copyIncoming P config nonce >>= fun previous =>
    guarded (removeDir nonce)
      (reserveRequest P config nonce previous >>= enterRequest P config nonce)

/-- The installation, and the rollback when it fails. -/
def installOrRollback (manifest : ReleaseManifest) : Act Unit := do
  match ← attempt (installRequest P config nonce manifest) with
  | .ok _ => pure ()
  | .error fault =>
    rollbackWith P config ("native_install_failed: " ++ fault.message)
    Prog.fail fault

theorem enlistRequest_eq (previous : CachedRelease) :
    enlistRequest P config nonce previous
      = reserveRequest P config nonce previous >>= enterRequest P config nonce := by
  unfold reserveRequest enlistRequest
  rw [Prog.bind_assoc]
  refine congrArg (verifyFiles P config nonce >>= ·) (funext fun manifest => ?_)
  by_cases hadmits : config.admits manifest.version
  · simp only [hadmits, if_true, Prog.bind_assoc]
    rfl
  · simp only [hadmits, Bool.false_eq_true, if_false, Prog.bind_assoc]
    rfl

theorem acceptRequestWith_eq :
    acceptRequestWith P config nonce = takeUpRequest P config nonce >>= fun manifest =>
      ackRequest nonce "accepted" >>= fun _ => installOrRollback P config nonce manifest := by
  unfold takeUpRequest copyIncoming
  simp only [Prog.bind_assoc, ← enlistRequest_eq]
  rfl

/-! ## Atomicity -/

/-- The run of a program from here ends with an error. -/
def Act.Errs {α : Type} (m : Act α) (w : World) : Prop := ∃ fault w', m w = (.error fault, w')

/-- The rollback of a failed installation fails in its turn. -/
def RollbackFails (w : World) : Prop :=
  ∃ manifest w₁ w₂ fault w₃, takeUpRequest P config nonce w = (.ok manifest, w₁) ∧
    ackRequest nonce "accepted" w₁ = (.ok (), w₂) ∧
    installRequest P config nonce manifest w₂ = (.error fault, w₃) ∧
    Act.Errs (rollbackWith P config ("native_install_failed: " ++ fault.message)) w₃

/-- **An error leaves no transaction pending**, unless the rollback failed. -/
def AcceptsAtomically (w : World) : Prop :=
  ∀ fault w', acceptRequestWith P config nonce w = (.error fault, w') →
    w'.host.journal.pending = none ∨ RollbackFails P config nonce w

/-- One of the next so many effects fails. -/
def failsWithin : Nat → List Turn → Bool
  | 0, _ => false
  | _ + 1, [] => false
  | n + 1, t :: script =>
    match t.fate with
    | .failed _ => true
    | .killed => false
    | .done => failsWithin n script

/-- The request is entered in the journal, and one of the three effects that
tell the endpoint so – opening its directory, reading the clock, replacing
`request-result.json` – fails. -/
def AnswerFails (w : World) : Prop :=
  ∃ manifest w₁, takeUpRequest P config nonce w = (.ok manifest, w₁) ∧
    failsWithin 3 w₁.script = true

/-- The request gets as far as its receipt. -/
def ReservesReceipt (w : World) : Prop :=
  ∃ manifest w', (copyIncoming P config nonce >>= reserveRequest P config nonce) w
    = (.ok manifest, w')

/-- The request is turned away before its receipt is written. -/
def TurnedAway (w : World) : Prop :=
  (takeUpRequest P config nonce).Errs w ∧ ¬ ReservesReceipt P config nonce w

/-! ## Effects that fail or not -/

variable {P config nonce} {w : World}

theorem World.after_script (w : World) (t : Turn) (script : List Turn) :
    (w.after t script).script = script := by
  have hacts : ∀ (acts : List EndpointAct) (w : World),
      (acts.foldl (fun w act => w.happen (.endpoint t.now act)) w).script = w.script := by
    intro acts
    induction acts with
    | nil => exact fun _ => rfl
    | cons act acts ih => exact fun w => ih (w.happen (.endpoint t.now act))
  exact hacts t.acts { w with script }

/-- How the next effect ends. -/
theorem step_eq (w : World) : step w = match w.script with
    | [] => (.killed, w)
    | t :: script => match t.fate with
      | .done => (.ok t, w.after t script)
      | .failed _ => (.error (.os t.detail), w.after t script)
      | .killed => (.killed, w.after t script) := by
  show Prog.andThen turn _ w = _
  unfold Prog.andThen turn
  cases w.script with
  | nil => rfl
  | cons t script =>
    cases hfate : t.fate <;> simp only [hfate] <;> rfl

theorem Act.errs_bind {α β : Type} (m : Act α) (f : α → Act β) (w : World) :
    Act.Errs (m >>= f) w ↔ m.Errs w ∨ ∃ a w', m w = (.ok a, w') ∧ (f a).Errs w' := by
  unfold Act.Errs
  simp only [Prog.bind_eq_error, exists_or]
  aesop

/-- An effect fails with its turn, and else what follows decides. -/
theorem errs_step_bind {α : Type} {f : Turn → Act α} {n : Nat}
    (hf : ∀ t w', (f t).Errs w' ↔ failsWithin n w'.script = true) (w : World) :
    Act.Errs (step >>= f) w ↔ failsWithin (n + 1) w.script = true := by
  rw [Act.errs_bind, Act.Errs, step_eq]
  unfold failsWithin
  cases w.script with
  | nil => simp
  | cons t script =>
    have h := hf t (w.after t script)
    rw [World.after_script] at h
    cases hfate : t.fate with
    | done => simpa [hfate] using h
    | _ => simp [hfate]

/-- **The answer fails with one of its three effects.** -/
theorem errs_ackRequest (hn : validNonce nonce = true) (w : World) :
    Act.Errs (ackRequest nonce "accepted") w ↔ failsWithin 3 w.script = true := by
  have heq : ackRequest nonce "accepted" = step >>= fun _ => step >>= fun t => step >>= fun _ =>
      happen (.wroteMailbox (.publishResult ⟨nonce, "accepted", t.now⟩)) := by
    unfold ackRequest unixNow refuse ensure
    rw [show validateNonce nonce = .ok () from if_pos hn, if_pos (Or.inl rfl)]
    simp only [Prog.bind_assoc]
    rfl
  rw [heq]
  refine errs_step_bind (fun _ => errs_step_bind fun t => errs_step_bind fun _ w' => ?_) w
  show (∃ fault w'', ((.ok (), _) : Outcome Fault Unit × World) = (.error fault, w'')) ↔ _
  simp [failsWithin]

/-! ## Up to the receipt -/

/-- No transaction is in the variable, the nonce is new, and the file names
this one. -/
structure Untouched (nonce : String) (p : Option Pending) (w : World) : Prop where
  held : w.journal.pending = none
  fresh : ∀ r ∈ w.journal.consumed, r.nonce ≠ nonce
  file : w.host.journal.pending = p

theorem documental_file (p : Option Pending) :
    Documental fun w => w.host.journal.pending = p where
  turns := fun _ h => h
  events := by
    intro w e he h
    rw [World.happen_host, Event.journal_kept he]
    exact h

theorem documental_untouched (p : Option Pending) : Documental (Untouched nonce p) where
  turns := fun _ h => ⟨h.held, h.fresh, h.file⟩
  events := by
    intro w e he h
    refine ⟨h.held, h.fresh, ?_⟩
    rw [World.happen_host, Event.journal_kept he]
    exact h.file

theorem Untouched.calm {p : Option Pending} {w' : World} (h : Untouched nonce p w)
    (hc : Calm w w') : Untouched nonce p w' := by
  refine ⟨?_, ?_, ?_⟩
  · rw [hc.journal, h.held]
  · rw [hc.journal]
    exact h.fresh
  · rw [hc.host_journal, h.file]

theorem copyIncoming_leads (held : w.journal.pending = none) :
    (copyIncoming P config nonce).Leads w
      (fun _ w' => validNonce nonce = true ∧ Untouched nonce w.host.journal.pending w')
      (fun _ w' => w'.host.journal.pending = w.host.journal.pending) (fun _ => True) := by
  have hI : Documental (Untouched nonce w.host.journal.pending) := documental_untouched _
  have hrest : ∀ j : Journal, (do
      let previous ← need j.active
        (.text "seed the current signed package before enabling native updates")
      let _ ← verifyFilesForRecovery P config previous.directory
      copyRequest (requestFile nonce Request.manifest) (requestFile nonce Request.artifact)
        nonce config.updates.maxDownloadBytes
      pure previous : Act CachedRelease).Keeps (Untouched nonce w.host.journal.pending) := fun _ =>
    Prog.keeps_need.bind fun _ => (hI.verifyFilesForRecovery P config _).bind fun _ =>
      (hI.copyRequest _ _ _ _).bind fun _ => Prog.keeps_pure _
  have hE : ∀ {w₁}, Calm w w₁ → w₁.host.journal.pending = w.host.journal.pending := fun hc => by
    rw [hc.host_journal]
  refine observes_refuse.then (fun _ w₁ hc₁ hn => ?_) (fun _ _ hc => hE hc) fun _ _ => trivial
  refine observes_getJournal.then (fun j w₂ hc₂ hj => ?_) (fun _ _ hc => hE (hc₁.trans hc))
    fun _ _ => trivial
  refine observes_refuse.then (fun _ w₃ hc₃ hfresh => ?_)
    (fun _ _ hc => hE ((hc₁.trans hc₂).trans hc)) fun _ _ => trivial
  have hj : j = w.journal := hj.trans hc₁.journal
  subst hj
  have h₃ : Untouched nonce w.host.journal.pending w₃ :=
    Untouched.calm ⟨held, hfresh, rfl⟩ ((hc₁.trans hc₂).trans hc₃)
  exact (hrest w.journal w₃ h₃).mono (fun _ _ h => ⟨hn, h⟩) (fun _ _ h => h.file) fun _ _ => trivial

/-- **The receipt clears the file**: it is written with what the variable
holds. -/
theorem rememberConsumedNonce_clears {receipt : ConsumedRequest} {p : Option Pending}
    (h : Untouched receipt.nonce p w) :
    (rememberConsumedNonce P config true receipt).Leads w
      (fun _ w' => w'.journal.pending = none ∧ w'.host.journal.pending = none)
      (fun _ w' => w'.host.journal.pending = p) (fun _ => True) := by
  have hfile : ∀ {w'}, Calm w w' → w'.host.journal.pending = p := fun hc => by
    rw [hc.host_journal, h.file]
  have hpush : ∀ w', w'.journal.pending = none ∧ w'.host.journal.pending = p → (do
      let journal ← getJournal
      refuse (journal.consumed.length < maxRequests)
        "native consumed request history is full; administrator repair is required before accepting another update"
      setJournal { journal with consumed := journal.consumed ++ [receipt] }
      writeJournal (.reserve config true receipt)).Leads w'
      (fun _ w' => w'.journal.pending = none ∧ w'.host.journal.pending = none)
      (fun _ w' => w'.host.journal.pending = p) fun _ => True := by
    intro w' h'
    refine observes_getJournal.then (fun j w₁ hc₁ hj => ?_) (fun _ w₁ hc₁ => ?_) fun _ _ => trivial
    · subst hj
      refine Prog.leads_bind.mpr (Prog.leads_ensure.mpr ⟨fun _ => ?_, fun _ => ?_⟩)
      · refine Prog.leads_bind.mpr (Prog.leads_modify.mpr ?_)
        have hheld : w'.journal.pending = none := h'.1
        refine writeJournal_writes (fun w₂ hc₂ => ⟨?_, hheld⟩) (fun _ w₂ hc₂ => ?_) fun _ _ => trivial
        · rw [World.happen_journal, hc₂.journal]
          exact hheld
        · rw [hc₂.host_journal]
          show w₁.host.journal.pending = p
          rw [hc₁.host_journal, h'.2]
      · rw [hc₁.host_journal, h'.2]
    · rw [hc₁.host_journal, h'.2]
  refine observes_refuse.then (fun _ w₁ hc₁ _ => ?_) (fun _ _ hc => hfile hc) fun _ _ => trivial
  refine observes_lift.then (fun _ w₂ hc₂ _ => ?_) (fun _ _ hc => hfile (hc₁.trans hc))
    fun _ _ => trivial
  refine observes_getJournal.then (fun j w₃ hc₃ hj => ?_)
    (fun _ _ hc => hfile ((hc₁.trans hc₂).trans hc)) fun _ _ => trivial
  have hc := (hc₁.trans hc₂).trans hc₃
  have hj : j = w.journal := hj.trans (hc₁.trans hc₂).journal
  subst hj
  have hfresh : w.journal.consumed.find? (fun r => r.nonce == receipt.nonce) = none := by
    simpa using h.fresh
  dsimp only
  rw [hfresh]
  refine Prog.leads_ite (fun hnone => ?_) fun _ => hpush w₃ ⟨by rw [hc.journal, h.held], hfile hc⟩
  refine Prog.leads_bind.mpr ((pruneReceipts_drops hnone).mono ?_
    (fun _ _ hc' => hfile (hc.trans hc')) fun _ _ => trivial)
  rintro _ w₄ ⟨consumed, hc₄, -, -⟩
  refine hpush w₄ ⟨?_, ?_⟩
  · rw [hc₄.journal, World.holding_journal, hc.journal]
    exact h.held
  · rw [hc₄.host_journal, World.holding_host]
    exact hfile hc

theorem reserveRequest_clears {p : Option Pending} {previous : CachedRelease}
    (h : Untouched nonce p w) :
    (reserveRequest P config nonce previous).Leads w
      (fun _ w' => w'.journal.pending = none ∧ w'.host.journal.pending = none)
      (fun _ w' => w'.host.journal.pending = p) (fun _ => True) := by
  have hI : Documental (Untouched nonce p) := documental_untouched p
  have hrest : ∀ (manifest : ReleaseManifest) w', Untouched nonce p w' → (do
      verifySignatureNative
      rememberConsumedNonce P config true (manifest.receipt nonce)
      pure manifest).Leads w'
      (fun _ w' => w'.journal.pending = none ∧ w'.host.journal.pending = none)
      (fun _ w' => w'.host.journal.pending = p) fun _ => True := by
    intro manifest w' h'
    refine Prog.leads_bind.mpr ((hI.verifySignatureNative w' h').mono (fun _ w₁ h₁ => ?_)
      (fun _ _ h => h.file) fun _ _ => trivial)
    refine Prog.leads_bind.mpr ((rememberConsumedNonce_clears h₁).imp fun _ _ h₂ => ?_)
    exact (Prog.leads_pure _).mpr h₂
  refine Prog.leads_bind.mpr ((hI.verifyFiles P config nonce w h).mono (fun manifest w₁ h₁ => ?_)
    (fun _ _ h => h.file) fun _ _ => trivial)
  refine Prog.leads_bind.mpr (Prog.leads_ensure.mpr ⟨fun _ => ?_, fun _ => h₁.file⟩)
  refine Prog.leads_ite (fun _ => hrest manifest w₁ h₁) fun _ => ?_
  refine Prog.leads_bind.mpr ((hI.readLedger P w₁ h₁).mono (fun ledger w₂ h₂ => ?_)
    (fun _ _ h => h.file) fun _ _ => trivial)
  exact Prog.leads_bind.mpr (Prog.leads_ensure.mpr ⟨fun _ => hrest manifest w₂ h₂, fun _ => h₂.file⟩)

/-! ## Up to the entry -/

theorem carried_nonePending :
    Carried fun w => w.journal.pending = none ∧ w.host.journal.pending = none where
  turns := fun _ h => h
  events := fun he h => ⟨h.1, (documental_file none).events he h.2⟩
  carrying := fun _ h => h
  reserves := fun h => ⟨h.1, h.1⟩
  ledger := fun _ _ h => h

theorem enterRequest_leads {manifest : ReleaseManifest}
    (h : w.journal.pending = none ∧ w.host.journal.pending = none) :
    (enterRequest P config nonce manifest).Leads w
      (fun _ w' => w'.host.journal.pending ≠ none)
      (fun _ w' => w'.host.journal.pending = none) (fun _ => True) := by
  have hI : Carried _ := carried_nonePending
  refine Prog.leads_bind.mpr ((hI.commitPending manifest nonce w h).mono (fun _ w₁ h₁ => ?_)
    (fun _ _ h => h.2) fun _ _ => trivial)
  refine Prog.leads_bind.mpr ((hI.clockNow w₁ h₁).mono (fun started w₂ h₂ => ?_)
    (fun _ _ h => h.2) fun _ _ => trivial)
  refine observes_getJournal.then (fun j w₃ hc₃ _ => ?_) (fun _ _ hc => ?_) fun _ _ => trivial
  · refine Prog.leads_bind.mpr (Prog.leads_modify.mpr ?_)
    refine Prog.leads_bind.mpr (writeJournal_writes (fun w₄ hc₄ => ?_) (fun _ w₄ hc₄ => ?_)
      fun _ _ => trivial)
    · refine (Prog.leads_pure _).mpr ?_
      rw [World.happen_host, Event.journal_apply]
      simp
    · rw [hc₄.host_journal]
      show w₃.host.journal.pending = none
      rw [hc₃.host_journal, h₂.2]
  · rw [hc.host_journal]
    exact h₂.2

/-! ## The whole of it -/

/-- **What a request that is not taken up leaves in the file**: nothing once
its receipt is written, and what was there before. -/
theorem file_of_takeUpRequest_error {fault : Fault} {w' : World} (held : w.journal.pending = none)
    (h : takeUpRequest P config nonce w = (.error fault, w')) :
    (ReservesReceipt P config nonce w ∧ w'.host.journal.pending = none) ∨
      (¬ ReservesReceipt P config nonce w ∧ w'.host.journal.pending = w.host.journal.pending) := by
  obtain hcopy | ⟨previous, w₁, hcopy, h⟩ := Prog.bind_eq_error.mp h
  · refine .inr ⟨fun ⟨m, w'', hreserved⟩ => ?_, (copyIncoming_leads held).error hcopy⟩
    obtain ⟨_, _, hcopied, -⟩ := Prog.bind_eq_ok.mp hreserved
    cases hcopy.symm.trans hcopied
  have h₁ := ((copyIncoming_leads held).ok hcopy).2
  obtain ⟨w₂, hm, rfl⟩ := Prog.error_of_guarded h
  have hclean : (removeDir nonce w₂).2.host.journal.pending = w₂.host.journal.pending :=
    ((documental_file _).removeDir nonce w₂ rfl).final
  rw [hclean]
  obtain hreserve | ⟨m, w₃, hreserve, henter⟩ := Prog.bind_eq_error.mp hm
  · refine .inr ⟨?_, (reserveRequest_clears h₁).error hreserve⟩
    rintro ⟨m, w'', hreserved⟩
    obtain ⟨_, _, hcopied, hreserved⟩ := Prog.bind_eq_ok.mp hreserved
    cases hcopy.symm.trans hcopied
    cases hreserve.symm.trans hreserved
  · refine .inl ⟨⟨m, w₃, Prog.bind_eq_ok.mpr ⟨previous, w₁, hcopy, hreserve⟩⟩, ?_⟩
    exact (enterRequest_leads ((reserveRequest_clears h₁).ok hreserve)).error henter

theorem takeUpRequest_ok {manifest : ReleaseManifest} {w' : World} (held : w.journal.pending = none)
    (h : takeUpRequest P config nonce w = (.ok manifest, w')) :
    validNonce nonce = true ∧ w'.host.journal.pending ≠ none := by
  obtain ⟨previous, w₁, hcopy, h⟩ := Prog.bind_eq_ok.mp h
  obtain ⟨hn, h₁⟩ := (copyIncoming_leads held).ok hcopy
  obtain ⟨m, w₂, hreserve, h⟩ := Prog.bind_eq_ok.mp (Prog.ok_of_guarded h)
  exact ⟨hn, (enterRequest_leads ((reserveRequest_clears h₁).ok hreserve)).ok h⟩

/-- A rollback that returns has settled the transaction. -/
theorem rollbackWith_settles (reason : String) (w : World) :
    (rollbackWith P config reason).Leads w (fun _ w' => w'.host.journal.pending = none)
      (fun _ _ => True) (fun _ => True) := by
  have hskip : ∀ {α : Type} {m : Act α} {f : α → Act Unit} {w : World},
      (∀ a w', (f a).Leads w' (fun _ w' => w'.host.journal.pending = none) (fun _ _ => True)
        fun _ => True) →
      (m >>= f).Leads w (fun _ w' => w'.host.journal.pending = none) (fun _ _ => True)
        fun _ => True := fun hf =>
    Prog.leads_bind.mpr ((Prog.leads_true _ _).imp fun a w' _ => hf a w')
  refine hskip fun journal _ => hskip fun pending _ => hskip fun previous _ => ?_
  refine hskip fun manifest _ => hskip fun _ _ => hskip fun _ _ => hskip fun _ _ => ?_
  refine hskip fun _ w₁ => Prog.leads_bind.mpr (Prog.leads_modify.mpr ?_)
  refine Prog.leads_bind.mpr (writeJournal_writes (fun w₂ hc₂ => ?_) (fun _ _ _ => trivial)
    fun _ _ => trivial)
  refine ((documental_file none).pruneCache _ ?_).mono (fun _ _ h => h) (fun _ _ _ => trivial)
    fun _ _ => trivial
  rw [World.happen_host, Event.journal_apply]

/-- What an error of the installation means. -/
theorem installOrRollback_error {manifest : ReleaseManifest} {fault : Fault} {w' : World}
    (h : installOrRollback P config nonce manifest w = (.error fault, w')) :
    ∃ fault' w₃, installRequest P config nonce manifest w = (.error fault', w₃) ∧
      (w'.host.journal.pending = none ∨
        Act.Errs (rollbackWith P config ("native_install_failed: " ++ fault'.message)) w₃) := by
  obtain h | ⟨r, w₃, hr, h⟩ := Prog.bind_eq_error.mp h
  · exact absurd h Prog.attempt_ne_error
  obtain ⟨_, rfl, -⟩ | ⟨fault', rfl, hinstall⟩ := Prog.attempt_eq_ok.mp hr
  · cases h
  refine ⟨fault', w₃, hinstall, ?_⟩
  obtain hrollback | ⟨_, w₄, hrollback, h⟩ := Prog.bind_eq_error.mp h
  · exact .inr ⟨fault, w', hrollback⟩
  · cases h
    exact .inl ((rollbackWith_settles _ w₃).ok hrollback)

variable (P config nonce) in
/-- **When accepting a request is atomic.** For every request, configuration and
state in which the loop takes one up, whichever step fails: an error leaves no
transaction in the journal, unless the rollback of the failed installation fails
in its turn, exactly when the endpoint can be told of the acceptance, and the
file has no transaction of before or the receipt is written over it. -/
theorem accept_atomic_iff (w : World) (held : w.journal.pending = none) :
    AcceptsAtomically P config nonce w ↔ ¬ AnswerFails P config nonce w ∧
      (w.host.journal.pending = none ∨ ¬ TurnedAway P config nonce w) := by
  constructor
  · intro h
    refine ⟨fun ⟨m, w₁, htake, hfails⟩ => ?_, ?_⟩
    · obtain ⟨hn, hpending⟩ := takeUpRequest_ok held htake
      obtain ⟨fault, w', hack⟩ := (errs_ackRequest hn w₁).mpr hfails
      have herror : acceptRequestWith P config nonce w = (.error fault, w') := by
        rw [acceptRequestWith_eq]
        exact Prog.bind_eq_error.mpr (.inr ⟨m, w₁, htake, Prog.bind_eq_error.mpr (.inl hack)⟩)
      obtain hnone | ⟨m', w₁', w₂, _, _, htake', hack', -⟩ := h fault w' herror
      · have hkept := ((documental_file _).ackRequest nonce "accepted" w₁ rfl).error hack
        exact hpending (hkept.symm.trans hnone)
      · cases htake.symm.trans htake'
        cases hack.symm.trans hack'
    · refine or_iff_not_imp_right.mpr fun haway => ?_
      obtain ⟨⟨fault, w', htake⟩, hreserved⟩ := not_not.mp haway
      have herror : acceptRequestWith P config nonce w = (.error fault, w') := by
        rw [acceptRequestWith_eq]
        exact Prog.bind_eq_error.mpr (.inl htake)
      obtain hnone | ⟨_, _, _, _, _, htake', -⟩ := h fault w' herror
      · obtain ⟨hr, -⟩ | ⟨-, hkept⟩ := file_of_takeUpRequest_error held htake
        · exact absurd hr hreserved
        · exact hkept.symm.trans hnone
      · cases htake.symm.trans htake'
  · rintro ⟨hanswer, hfile⟩ fault w' h
    rw [acceptRequestWith_eq] at h
    obtain htake | ⟨m, w₁, htake, h⟩ := Prog.bind_eq_error.mp h
    · obtain ⟨-, hnone⟩ | ⟨hreserved, hkept⟩ := file_of_takeUpRequest_error held htake
      · exact .inl hnone
      · have haway : TurnedAway P config nonce w := ⟨⟨fault, w', htake⟩, hreserved⟩
        exact .inl (hkept.trans (hfile.resolve_right fun hn => hn haway))
    obtain hack | ⟨_, w₂, hack, h⟩ := Prog.bind_eq_error.mp h
    · have hn := (takeUpRequest_ok held htake).1
      exact absurd ⟨m, w₁, htake, (errs_ackRequest hn w₁).mp ⟨fault, w', hack⟩⟩ hanswer
    · obtain ⟨fault', w₃, hinstall, hend⟩ := installOrRollback_error h
      exact hend.imp_right fun hrollback => ⟨m, w₁, w₂, fault', w₃, htake, hack, hinstall, hrollback⟩

/-! ## Two requests -/

namespace Sample

/-- The host after a seeding, with a newer release in its queue. -/
def requestedHost : Host :=
  let h := (on [(seeding none current, quietly 40)]).host platform
  { h with shared := { h.shared with
    incoming := [(nonce₁, ⟨true, some newer.signed, some newer.artifact⟩)] } }

def requesting (script : List Turn) : World := ⟨requestedHost, requestedHost.journal, script, []⟩

/-- The installer reports a failure, and the rollback settles the transaction. -/
def declined : World := requesting (quietly 30 ++ failed :: quietly 40)

theorem declined_run :
    declined.journal.pending = none ∧ declined.host.journal.pending = none ∧
      (acceptRequestWith platform (Sample.config none) nonce₁ declined).1 = .error (.os "") ∧
      failsWithin 3
        (takeUpRequest platform (Sample.config none) nonce₁ declined).2.script = false := by
  decide +kernel

theorem declined_atomically :
    (acceptRequestWith platform (Sample.config none) nonce₁ declined).1 = .error (.os "") ∧
      AcceptsAtomically platform (Sample.config none) nonce₁ declined := by
  obtain ⟨held, hfile, herror, hquiet⟩ := declined_run
  refine ⟨herror, (accept_atomic_iff platform (Sample.config none) nonce₁ declined held).mpr
    ⟨?_, .inl hfile⟩⟩
  rintro ⟨m, w₁, htake, hfails⟩
  rw [htake, hfails] at hquiet
  cases hquiet

/-- The entry is in the journal, and the endpoint's directory cannot be opened. -/
def unanswerable : World := requesting (quietly 27 ++ [failed])

theorem unanswerable_run :
    (unanswerable.journal.pending = none ∧ unanswerable.host.journal.pending = none) ∧
      (acceptRequestWith platform (Sample.config none) nonce₁ unanswerable).1
        = .error (.os "") ∧
      ((acceptRequestWith platform (Sample.config none) nonce₁ unanswerable).2.host.journal.pending.map
        (·.nonce)) = some nonce₁ ∧
      handed (acceptRequestWith platform (Sample.config none) nonce₁ unanswerable).2.trace
        (newer.manifest.receipt nonce₁) = false ∧
      (ackRequest nonce₁ "accepted"
        (takeUpRequest platform (Sample.config none) nonce₁ unanswerable).2).1 = .error (.os "") := by
  decide +kernel

/-- **An error that leaves a transaction pending**: no package was handed to the
installer, and no rollback was started. -/
theorem entry_left_behind :
    unanswerable.journal.pending = none ∧ unanswerable.host.journal.pending = none ∧
      (acceptRequestWith platform (Sample.config none) nonce₁ unanswerable).1
        = .error (.os "") ∧
      ((acceptRequestWith platform (Sample.config none) nonce₁ unanswerable).2.host.journal.pending.map
        (·.nonce)) = some nonce₁ ∧
      handed (acceptRequestWith platform (Sample.config none) nonce₁ unanswerable).2.trace
        (newer.manifest.receipt nonce₁) = false ∧
      ¬ AcceptsAtomically platform (Sample.config none) nonce₁ unanswerable := by
  obtain ⟨⟨held, hfile⟩, herror, hentry, hhanded, hfails⟩ := unanswerable_run
  refine ⟨held, hfile, herror, hentry, hhanded, fun h => ?_⟩
  have hends : ∀ {r : Outcome Fault Unit × World}, r.1 = .error (.os "") →
      r = (.error (.os ""), r.2) := fun h => Prod.ext h rfl
  obtain hnone | ⟨m, w₁, w₂, _, _, htake, hack, -⟩ := h _ _ (hends herror)
  · rw [hnone] at hentry
    cases hentry
  · rw [htake, hack] at hfails
    cases hfails

end Sample

end Lariska
