import Lariska.TransactionAgreement

/-!
# The finality of a rollback

A transaction that is rolled back has its previous package installed before
anything durable says so, and until the record is written a health file that
still satisfies the window is enough to record it healthy. The endpoint
writes that file itself, with the version it runs, so the file says which
package is installed – as long as none was installed after it was written.

What follows is stated for an endpoint that touches its mailbox only through
`ack_health`.
-/

namespace Lariska

variable {P : Platform} {Configs : Config → Prop} {past : Past Host Event} {h : Host} {e : Event}

/-- Since the last commit, the previous package has been handed to the
installer. -/
def rolledBack : Past Host Event → Bool
  | [] => false
  | (.installing ⟨.rollback _, _, _, _, _⟩, _) :: _ => true
  | (.wroteLedger (.commit _ _) _, _) :: _ => false
  | _ :: past => rolledBack past

/-- The endpoint writes its mailbox only through `ack_health`. -/
def Event.AcksOnly : Event → Prop
  | .endpoint _ (.rewriteMailbox _ _ _) => False
  | _ => True

instance (e : Event) : Decidable e.AcksOnly := by
  unfold Event.AcksOnly
  rcases e with ⟨⟩
  case endpoint _ act => rcases act with ⟨⟩ <;> infer_instance
  all_goals infer_instance

/-- A health file read after the rollback of the pending transaction does not
satisfy its window. -/
def Event.ReadsNoLateAck (P : Platform) (past : Past Host Event) (h : Host) : Event → Prop
  | .sawHealth ack => rolledBack past = true →
    ∀ p ∈ (h.ledger P).pending, ack.accepts p = false
  | _ => True

instance (P : Platform) (past : Past Host Event) (h : Host) (e : Event) :
    Decidable (e.ReadsNoLateAck P past h) := by
  unfold Event.ReadsNoLateAck
  rcases e with ⟨⟩ <;> infer_instance

/-- The event is one of a seeding. -/
def Event.seeds : Event → Bool
  | .wroteLedger (.raise _) _ => true
  | .wroteJournal (.activate _) _ => true
  | _ => false

/-- The record of a transaction finished as healthy. -/
def Event.recordsHealthy : Event → Option HistoryEntry
  | .wroteLedger (.record _ r) _ => if r.outcome = "healthy" then some r else none
  | _ => none

/-- **A rollback is final**: after it, until the next transaction is
committed, no step but a seeding moves the floor or the active release, and
none records the transaction healthy. -/
structure Event.KeepsRollback (P : Platform) (past : Past Host Event) (h : Host) (e : Event) :
    Prop where
  unrecorded : rolledBack past = true → e.recordsHealthy = none
  floor : rolledBack past = true → e.seeds = false →
    (h.ledger P).SameFloor ((e.apply h).ledger P)
  active : rolledBack past = true → e.seeds = false →
    (e.apply h).journal.active = h.journal.active

/-- **What is recorded healthy is installed.** -/
def Event.RecordsInstalled (h : Host) (e : Event) : Prop :=
  ∀ r ∈ e.recordsHealthy,
    ∃ q ∈ h.journal.pending, q.receipt = r.receipt ∧ h.installed = q.release.manifest

instance (l l' : UpdateLedger) : Decidable (l.SameFloor l') :=
  decidable_of_iff (l'.floorVersion = l.floorVersion ∧ l'.floorSequence = l.floorSequence)
    ⟨fun h => ⟨h.1, h.2⟩, fun h => ⟨h.version, h.sequence⟩⟩

instance (P : Platform) (past : Past Host Event) (h : Host) (e : Event) :
    Decidable (e.KeepsRollback P past h) :=
  decidable_of_iff
    ((rolledBack past = true → e.recordsHealthy = none) ∧
      (rolledBack past = true → e.seeds = false →
        (h.ledger P).SameFloor ((e.apply h).ledger P)) ∧
      (rolledBack past = true → e.seeds = false →
        (e.apply h).journal.active = h.journal.active))
    ⟨fun h => ⟨h.1, h.2.1, h.2.2⟩, fun h => ⟨h.unrecorded, h.floor, h.active⟩⟩

instance (h : Host) (e : Event) : Decidable (e.RecordsInstalled h) := by
  unfold Event.RecordsInstalled
  infer_instance

/-! ## What is installed -/

/-- The installed package is the active release, by version. -/
def Host.RunsActive (h : Host) : Prop :=
  ∀ a, h.journal.active = some a → h.installed.version = a.manifest.version

/-- **What the documents say of the installed package.** -/
structure Placed (P : Platform) (past : Past Host Event) (h : Host) : Prop where
  /-- A transaction replaces an active release of another version. -/
  replaces : ∀ p, (h.ledger P).pending = some p →
    ∃ a, h.journal.active = some a ∧ a.manifest.version ≠ p.version
  /-- Outside a transaction the active release is installed. -/
  resting : h.journal.pending = none → h.RunsActive
  /-- Inside one, either of the two is. -/
  underway : ∀ q, h.journal.pending = some q → (h.ledger P).Awaits q.receipt →
    h.installed = q.release.manifest ∨ h.RunsActive
  /-- After a healthy one, the new release is. -/
  promoted : ∀ q, h.journal.pending = some q → (h.ledger P).Finished q.receipt "healthy" →
    h.installed = q.release.manifest ∧ rolledBack past = false
  /-- After any other one, the active release is. -/
  undone : ∀ q outcome, h.journal.pending = some q →
    (h.ledger P).Finished q.receipt outcome → outcome ≠ "healthy" → h.RunsActive

/-- **What an acknowledgement just read says of the installed package.** -/
def Host.Confirms (P : Platform) (past : Past Host Event) (h : Host) : Prop :=
  ∀ p q ack, (h.ledger P).pending = some p → h.journal.pending = some q →
    lastAck past = some ack → ack.accepts p = true →
    h.installed = q.release.manifest ∧ rolledBack past = false

theorem UpdateLedger.Awaits.not_finished {l : UpdateLedger} {receipt receipt' : ConsumedRequest}
    {outcome : String} (ha : l.Awaits receipt) : ¬ l.Finished receipt' outcome := by
  rintro ⟨hnone, -⟩
  obtain ⟨p, hp, -⟩ := ha
  rw [hnone] at hp
  cases hp

/-- A step that leaves the documents, the installed package and the rollback
as they are leaves what they say. -/
theorem Placed.congr {past' : Past Host Event} {h' : Host} (hi : Placed P past h)
    (ha : h'.journal.active = h.journal.active) (hp : h'.journal.pending = h.journal.pending)
    (hl : h'.ledger P = h.ledger P) (hinst : h'.installed = h.installed)
    (hroll : rolledBack past' = rolledBack past) : Placed P past' h' := by
  have hruns : h.RunsActive → h'.RunsActive := fun hr a haa => by
    rw [hinst]
    exact hr a (ha ▸ haa)
  refine ⟨fun p => ?_, fun hnone => ?_, fun q hq haw => ?_, fun q hq hfin => ?_,
    fun q outcome hq hfin hne => ?_⟩
  · rw [hl, ha]
    exact hi.replaces p
  · exact hruns (hi.resting (hp ▸ hnone))
  · rw [hinst]
    exact (hi.underway q (hp ▸ hq) (hl ▸ haw)).imp_right hruns
  · rw [hinst, hroll]
    exact hi.promoted q (hp ▸ hq) (hl ▸ hfin)
  · exact hruns (hi.undone q outcome (hp ▸ hq) (hl ▸ hfin) hne)

/-- Documents without a transaction only say what is installed. -/
theorem Placed.of_idle (hj : h.journal.pending = none) (hl : (h.ledger P).pending = none)
    (hruns : h.RunsActive) : Placed P past h := by
  refine ⟨fun p hp => ?_, fun _ => hruns, fun q hq => ?_, fun q hq => ?_, fun q _ hq => ?_⟩
  · exact absurd hp (by rw [hl]; simp)
  all_goals exact absurd hq (by rw [hj]; simp)

/-- Inside a transaction it is enough to know which release is installed. -/
theorem Placed.of_underway {q : Pending} {p : PendingUpdate} (hj : h.journal.pending = some q)
    (hl : (h.ledger P).pending = some p)
    (hprev : ∃ a, h.journal.active = some a ∧ a.manifest.version ≠ p.version)
    (hinst : h.installed = q.release.manifest ∨ h.RunsActive) : Placed P past h := by
  have hopen : ∀ receipt outcome, ¬ (h.ledger P).Finished receipt outcome := fun _ _ =>
    UpdateLedger.Awaits.not_finished ⟨p, hl, rfl⟩
  refine ⟨fun p' hp' => ?_, fun hnone => ?_, fun q' hq' _ => ?_, fun q' _ hfin => ?_,
    fun q' _ _ hfin => ?_⟩
  · cases hl.symm.trans hp'
    exact hprev
  · exact absurd hj (by rw [hnone]; simp)
  · cases hj.symm.trans hq'
    exact hinst
  all_goals exact absurd hfin (hopen _ _)

/-- After a transaction it is enough to know what its outcome says. -/
theorem Placed.of_finished {q : Pending} {r : HistoryEntry} (hj : h.journal.pending = some q)
    (hl : (h.ledger P).pending = none) (hlast : (h.ledger P).history.getLast? = some r)
    (hhealthy : r.outcome = "healthy" →
      h.installed = q.release.manifest ∧ rolledBack past = false)
    (hother : r.outcome ≠ "healthy" → h.RunsActive) : Placed P past h := by
  refine ⟨fun p hp => ?_, fun hnone => ?_, fun q' _ haw => ?_, fun q' hq' hfin => ?_,
    fun q' outcome _ hfin hne => ?_⟩
  · exact absurd hp (by rw [hl]; simp)
  · exact absurd hj (by rw [hnone]; simp)
  · obtain ⟨p, hp, -⟩ := haw
    exact absurd hp (by rw [hl]; simp)
  · obtain ⟨-, r', hr', -, hout⟩ := hfin
    cases hlast.symm.trans hr'
    cases hj.symm.trans hq'
    exact hhealthy hout
  · obtain ⟨-, r', hr', -, hout⟩ := hfin
    cases hlast.symm.trans hr'
    exact hother (hout ▸ hne)

/-- **Every step keeps what the documents say**, given what an
acknowledgement says. -/
theorem Placed.keep (hi : Placed P past h) (hc : h.Confirms P past)
    (he : Permitted P Configs past h e) : Placed P ((e, h) :: past) (e.apply h) := by
  cases he with
  | @accept config receipt j inForce rule =>
    refine .of_idle rule.pending rule.idle ?_
    have hruns : h.RunsActive := by
      cases hq : h.journal.pending with
      | none => exact hi.resting hq
      | some q => exact hi.undone q _ hq (rule.quiet q hq) (by decide)
    intro a ha
    exact hruns a (rule.active ▸ ha)
  | renew inForce rule => exact hi.congr rule.active rule.pending rfl rfl rfl
  | @enlist q rule =>
    obtain ⟨p, hp, -⟩ := rule.awaited
    exact .of_underway rfl hp (hi.replaces p hp) (.inr (hi.resting rule.idle))
  | @rearm q pending startedAt =>
    refine ⟨hi.replaces, fun hnone => ?_, fun q' hq' haw => ?_, fun q' hq' hfin => ?_,
      fun q' outcome hq' hfin hne => ?_⟩
    · cases hnone
    · cases hq'
      exact hi.underway q pending haw
    · cases hq'
      exact hi.promoted q pending hfin
    · cases hq'
      exact hi.undone q outcome pending hfin hne
  | @settle q outcome j rule =>
    have hj : (Event.apply (.wroteJournal .settle j) h).journal = h.journal.settled outcome q.release :=
      rule.journal
    refine .of_idle (by rw [hj]; rfl) rule.finished.1 ?_
    intro a ha
    rw [hj] at ha
    by_cases hout : outcome = "healthy"
    · subst hout
      cases ha
      exact congrArg ReleaseManifest.version (hi.promoted q rule.pending rule.finished).1
    · rw [Journal.settled, if_neg hout] at ha
      exact hi.undone q outcome rule.pending rule.finished hout a ha
  | @activate r rule =>
    refine .of_idle rule.idle rule.settled ?_
    intro a ha
    cases ha
    exact rule.installed.symm
  | @commit config p inForce rule =>
    obtain ⟨a, ha, hne, -⟩ := rule.previous
    refine ⟨fun p' hp' => ?_, fun _ => hi.resting rule.journal, fun q hq => ?_, fun q hq => ?_,
      fun q _ hq => ?_⟩
    · cases hp'
      exact ⟨a, ha, hne⟩
    all_goals exact absurd (rule.journal.symm.trans hq) (by simp)
  | @arm p l rule =>
    obtain ⟨startedAt, deadline, rfl⟩ := rule.ledger
    obtain ⟨q, hq, hreceipt⟩ := rule.enlisted
    exact .of_underway hq rfl (hi.replaces p rule.pending)
      (hi.underway q hq ⟨p, rule.pending, hreceipt.symm⟩)
  | @promote config p r l inForce rule =>
    obtain ⟨q, hq, -⟩ := rule.enlisted
    obtain ⟨ack, hack, haccepts⟩ := rule.acknowledged
    have hconfirmed := hc p q ack rule.pending hq hack haccepts
    refine .of_finished hq rule.closed ?_ (fun _ => hconfirmed)
      (fun hne => absurd rule.outcome hne)
    exact (congrArg List.getLast? rule.history).trans (getLast_appendHistory rule.room _ _)
  | @abandon config p r l inForce rule =>
    rcases rule.undone with ⟨hj, -⟩ | ⟨q, a, hq, -, ha, hinst⟩
    · exact .of_idle hj rule.closed (hi.resting hj)
    · refine .of_finished hq rule.closed ?_
        (fun hout => absurd (rule.outcome.symm.trans hout) (by decide)) ?_
      · exact (congrArg List.getLast? rule.history).trans (getLast_appendHistory rule.room _ _)
      · intro _ a' ha'
        cases ha.symm.trans ha'
        exact congrArg ReleaseManifest.version hinst
  | @raise m l rule =>
    have hfin : ∀ {receipt outcome}, l.Finished receipt outcome →
        (h.ledger P).Finished receipt outcome := fun hf =>
      ⟨rule.pending, rule.history ▸ hf.2⟩
    refine ⟨fun p hp => ?_, hi.resting, fun q _ haw => ?_, fun q hq hf => ?_,
      fun q outcome hq hf hne => ?_⟩
    · exact absurd (rule.unpended.symm.trans hp) (by simp)
    · obtain ⟨p, hp, -⟩ := haw
      exact absurd (rule.unpended.symm.trans hp) (by simp)
    · exact hi.promoted q hq (hfin hf)
    · exact hi.undone q outcome hq (hfin hf) hne
  | @advance config m bytes nonce effective inForce vouched rule =>
    obtain ⟨p, hp, hreceipt⟩ := rule.awaited
    obtain ⟨q, hq, hm, hn⟩ := rule.enlisted
    have haw : (h.ledger P).Awaits q.receipt := ⟨p, hp, by rw [hreceipt, ← hm, ← hn]; rfl⟩
    cases effective with
    | false => exact .of_underway hq hp (hi.replaces p hp) (hi.underway q hq haw)
    | true => exact .of_underway hq hp (hi.replaces p hp) (.inl hm.symm)
  | @retreat config m bytes nonce effective inForce vouched rule =>
    obtain ⟨q, hq, -, haw⟩ := rule.enlisted
    obtain ⟨p, hp, -⟩ := id haw
    obtain ⟨a, ha, hm⟩ := rule.previous
    cases effective with
    | false => exact .of_underway hq hp (hi.replaces p hp) (hi.underway q hq haw)
    | true =>
      refine .of_underway hq hp (hi.replaces p hp) (.inr fun a' ha' => ?_)
      cases ha.symm.trans ha'
      exact congrArg ReleaseManifest.version hm.symm
  | _ => exact hi.congr rfl rfl rfl rfl rfl

/-! ## What the mailbox says -/

/-- **What an acknowledgement in the mailbox says of the installed
package.** -/
structure Witnessed (P : Platform) (past : Past Host Event) (h : Host) : Prop where
  /-- Before the journal names the transaction no acknowledgement is of its
  version. -/
  unseen : ∀ p ack, (h.ledger P).pending = some p → h.journal.pending = none →
    cleared past = true → h.shared.health = some ack → ack.version ≠ p.version
  /-- After that, one of its version says that it is installed, or was. -/
  seen : ∀ p q ack, (h.ledger P).pending = some p → h.journal.pending = some q →
    h.shared.health = some ack → ack.version = p.version →
    h.installed = q.release.manifest ∨ rolledBack past = true
  read : h.Confirms P past

/-- The health file changes by removing it and by what the endpoint writes. -/
theorem Event.health_apply (e : Event) (h : Host) :
    (e.apply h).shared.health = match e with
      | .endpoint now act => (act.apply now h).shared.health
      | .wroteMailbox .removeHealth => none
      | _ => h.shared.health := by
  cases e with
  | installing call => cases hc : call.effective <;> simp [Event.apply, hc]
  | wroteMailbox write => cases write <;> rfl
  | _ => rfl

/-- An acknowledgement `ack_health` writes is of the installed version. -/
theorem Shared.ackHealth_health {s : Shared} {running : String} {now : Nat} {ack : HealthAck}
    (hack : (s.ackHealth running now).health = some ack) :
    s.health = some ack ∨ ack.version = running := by
  unfold Shared.ackHealth at hack
  split at hack
  · exact .inl hack
  · next pending _ =>
    split at hack
    · exact .inl hack
    · split at hack
      · exact .inl hack
      · next hver =>
        right
        rw [← Option.some.inj hack]
        by_contra hne
        exact hver (.inl hne)

/-- What an endpoint that only acknowledges leaves in the mailbox. -/
theorem EndpointAct.health_apply {now : Nat} {act : EndpointAct} {ack : HealthAck}
    (honest : (Event.endpoint now act).AcksOnly)
    (hack : (act.apply now h).shared.health = some ack) :
    h.shared.health = some ack ∨ ack.version = h.installed.version := by
  cases act with
  | ackHealth => exact Shared.ackHealth_health hack
  | rewriteQueue incoming => exact .inl hack
  | rewriteMailbox pendingHealth health result => exact absurd honest id

/-- With a transaction pending, the active release is of another version. -/
theorem Placed.ne_version {p : PendingUpdate} (hi : Placed P past h)
    (hp : (h.ledger P).pending = some p) (hruns : h.RunsActive) :
    h.installed.version ≠ p.version := by
  obtain ⟨a, ha, hne⟩ := hi.replaces p hp
  rw [hruns a ha]
  exact hne

/-- With no transaction pending there is nothing to acknowledge. -/
theorem Witnessed.of_closed (hl : (h.ledger P).pending = none) : Witnessed P past h := by
  refine ⟨fun p _ hp => ?_, fun p _ _ hp => ?_, fun p _ _ hp => ?_⟩
  all_goals exact absurd hp (by rw [hl]; simp)

/-- A step that leaves the documents, the installed package, the mailbox and
what the past says of them as they are. -/
theorem Witnessed.congr {past' : Past Host Event} {h' : Host} (hw : Witnessed P past h)
    (hj : h'.journal.pending = h.journal.pending) (hl : h'.ledger P = h.ledger P)
    (hinst : h'.installed = h.installed) (hhealth : h'.shared.health = h.shared.health)
    (hroll : rolledBack past' = rolledBack past) (hclear : cleared past' = cleared past)
    (hack : ∀ ack, lastAck past' = some ack → lastAck past = some ack) :
    Witnessed P past' h' := by
  refine ⟨fun p ack hp hq hcl ha => ?_, fun p q ack hp hq ha hv => ?_, fun p q ack hp hq ha hv => ?_⟩
  · exact hw.unseen p ack (hl ▸ hp) (hj ▸ hq) (hclear ▸ hcl) (hhealth ▸ ha)
  · rw [hinst, hroll]
    exact hw.seen p q ack (hl ▸ hp) (hj ▸ hq) (hhealth ▸ ha) hv
  · rw [hinst, hroll]
    exact hw.read p q ack (hl ▸ hp) (hj ▸ hq) (hack ack ha) hv

/-- What the endpoint writes keeps to what is installed. -/
theorem Witnessed.endpoint {now : Nat} {act : EndpointAct} (hw : Witnessed P past h)
    (hi : Placed P past h) (ha : h.Agrees P Configs)
    (honest : (Event.endpoint now act).AcksOnly) :
    Witnessed P ((.endpoint now act, h) :: past) (act.apply now h) := by
  refine ⟨fun p ack hp hq hcl hack => ?_, fun p q ack hp hq hack hv => ?_, hw.read⟩
  · rcases EndpointAct.health_apply honest hack with hold | hnew
    · exact hw.unseen p ack hp hq hcl hold
    · rw [hnew]
      exact hi.ne_version hp (hi.resting hq)
  · rcases EndpointAct.health_apply honest hack with hold | hnew
    · exact hw.seen p q ack hp hq hold hv
    · have haw : (h.ledger P).Awaits q.receipt :=
        (ha.journaled q hq).resolve_right fun ⟨_, hfin⟩ =>
          UpdateLedger.Awaits.not_finished ⟨p, hp, rfl⟩ hfin
      exact .inl ((hi.underway q hq haw).resolve_right fun hruns =>
        hi.ne_version hp hruns (hnew.symm.trans hv))

/-- **Every step keeps what the mailbox says.** -/
theorem Witnessed.keep (hw : Witnessed P past h) (hi : Placed P past h)
    (ha : h.Agrees P Configs) (he : Permitted P Configs past h e) (honest : e.AcksOnly)
    (hlate : e.ReadsNoLateAck P past h) : Witnessed P ((e, h) :: past) (e.apply h) := by
  cases he with
  | endpoint now act => exact hw.endpoint hi ha honest
  | passStarted => exact hw.congr rfl rfl rfl rfl rfl rfl (fun _ h => absurd h (by simp [lastAck]))
  | @sawHealth ack read =>
    refine ⟨hw.unseen, hw.seen, fun p q ack' hp hq hack haccepts => ?_⟩
    cases hack
    have hv : ack.version = p.version := by
      simp only [HealthAck.accepts, Bool.and_eq_true, beq_iff_eq] at haccepts
      exact haccepts.1.1.2
    have hroll : rolledBack past = false := by
      by_contra hne
      have hrefused := hlate (by simpa using hne) p hp
      rw [hrefused] at haccepts
      cases haccepts
    refine ⟨(hw.seen p q ack hp hq read hv).resolve_right ?_, hroll⟩
    rw [hroll]
    simp
  | wroteMailbox write =>
    cases write with
    | removeHealth =>
      refine ⟨fun p ack _ _ _ hack => ?_, fun p q ack _ _ hack => ?_, hw.read⟩
      all_goals cases hack
    | _ => exact hw.congr rfl rfl rfl rfl rfl rfl (fun _ h => h)
  | accept inForce rule => exact .of_closed rule.idle
  | renew inForce rule =>
    exact hw.congr rule.pending rfl rfl rfl rfl rfl (fun _ h => absurd h (by simp [lastAck]))
  | @enlist q rule =>
    refine ⟨fun p ack _ hq => ?_, fun p q' ack hp hq hack hv => ?_, fun p q' ack _ _ hack => ?_⟩
    · cases hq
    · exact absurd hv (hw.unseen p ack hp rule.idle rule.cleared hack)
    · cases hack
  | @rearm q pending startedAt =>
    refine ⟨fun p ack _ hq => ?_, fun p q' ack hp hq hack hv => ?_, fun p q' ack _ _ hack => ?_⟩
    · cases hq
    · cases hq
      exact hw.seen p q ack hp pending hack hv
    · cases hack
  | settle rule => exact .of_closed rule.finished.1
  | activate rule => exact .of_closed rule.settled
  | commit inForce rule =>
    refine ⟨fun p ack _ _ hcl => ?_, fun p q ack _ hq => ?_, fun p q ack _ hq => ?_⟩
    · cases hcl
    all_goals exact absurd (rule.journal.symm.trans hq) (by simp)
  | @arm p l rule =>
    obtain ⟨startedAt, deadline, rfl⟩ := rule.ledger
    obtain ⟨q, hq, -⟩ := rule.enlisted
    refine ⟨fun p' ack _ hnone => ?_, fun p' q' ack hp' hq' hack hv => ?_,
      fun p' q' ack _ _ hack => ?_⟩
    · exact absurd (hq.symm.trans hnone) (by simp)
    · cases hp'
      exact hw.seen p q' ack rule.pending hq' hack hv
    · cases hack
  | promote inForce rule => exact .of_closed rule.closed
  | abandon inForce rule => exact .of_closed rule.closed
  | raise rule => exact .of_closed rule.unpended
  | @advance config m bytes nonce effective inForce vouched rule =>
    obtain ⟨q, hq, hm, -⟩ := rule.enlisted
    refine ⟨fun p ack _ hnone => ?_, fun p q' ack hp hq' hack hv => ?_,
      fun p q' ack _ _ hack => ?_⟩
    · rw [Event.journal_apply] at hnone
      exact absurd (hq.symm.trans hnone) (by simp)
    · rw [Event.journal_apply] at hq'
      rw [Event.ledger_apply] at hp
      rw [Event.health_apply] at hack
      cases hq.symm.trans hq'
      rw [Event.installed_apply]
      cases effective with
      | false => exact hw.seen p q ack hp hq hack hv
      | true => exact .inl hm.symm
    · cases hack
  | @retreat config m bytes nonce effective inForce vouched rule =>
    obtain ⟨q, hq, -⟩ := rule.enlisted
    refine ⟨fun p ack _ hnone => ?_, fun p q' ack _ _ _ _ => .inr rfl, fun p q' ack _ _ hack => ?_⟩
    · rw [Event.journal_apply] at hnone
      exact absurd (hq.symm.trans hnone) (by simp)
    · cases hack
  | _ => exact hw.congr rfl rfl rfl rfl rfl rfl (fun _ h => h)

/-! ## Runs -/

/-- **What the documents and the mailbox say after every history** with such
an endpoint whose reads meet the condition. -/
theorem placed_of_supervised (hs : Supervised P Configs past h)
    (hC : Throughout (fun past h e => e.AcksOnly ∧ e.ReadsNoLateAck P past h) past) :
    Placed P past h ∧ Witnessed P past h := by
  have key : (Placed P past h ∧ Witnessed P past h) ∧ h.Agrees P Configs ∧ h.Distinct := by
    refine hs.invariant (I := fun past h => (Placed P past h ∧ Witnessed P past h) ∧
      h.Agrees P Configs ∧ h.Distinct) hC ?_ ?_
    · intro h hf
      have hroot : h.root = ⟨none, none, []⟩ := hf
      have hj : h.journal = Journal.empty := by rw [Host.journal, hroot]; rfl
      have hl : h.ledger P = UpdateLedger.initial P := by rw [Host.ledger, hroot]; rfl
      have hidle : (h.ledger P).pending = none := by rw [hl]; rfl
      have hstart : Supervised P Configs [] h := .start hf
      refine ⟨⟨.of_idle (by rw [hj]; rfl) hidle fun a ha => ?_, .of_closed hidle⟩,
        agrees_of_supervised hstart, distinct_of_supervised hstart⟩
      rw [hj] at ha
      cases ha
    · rintro past h e _ ⟨⟨hi, hw⟩, ha, hd⟩ ⟨honest, hlate⟩ ⟨he, rfl⟩
      exact ⟨⟨hi.keep hw.read he, hw.keep hi ha he honest hlate⟩, ha.keep hd he, hd.keep he⟩
  exact key.1

/-- A step that records a transaction healthy is a promotion, of an
acknowledgement that says what is installed. -/
theorem Permitted.recorded_healthy (he : Permitted P Configs past h e) (hw : Witnessed P past h)
    {r : HistoryEntry} (hr : e.recordsHealthy = some r) :
    rolledBack past = false ∧
      ∃ q, h.journal.pending = some q ∧ q.receipt = r.receipt ∧
        h.installed = q.release.manifest := by
  cases he with
  | @promote config p r' l inForce rule =>
    obtain ⟨q, hq, hreceipt⟩ := rule.enlisted
    obtain ⟨ack, hack, haccepts⟩ := rule.acknowledged
    have hconfirmed := hw.read p q ack rule.pending hq hack haccepts
    rw [Event.recordsHealthy, if_pos rule.outcome] at hr
    cases hr
    exact ⟨hconfirmed.2, q, hq, hreceipt.trans rule.receipt.symm, hconfirmed.1⟩
  | abandon inForce rule => simp [Event.recordsHealthy, rule.outcome] at hr
  | _ => simp [Event.recordsHealthy] at hr

/-- **A rollback is final, and what is recorded healthy is installed**, as
long as no health file read after the rollback of a pending transaction
satisfies its window. Over any run with an endpoint that writes its mailbox
only through `ack_health`: once the previous package has been handed back to
the installer, the transaction is not recorded healthy, and neither the floor
nor the active release moves; and a transaction is recorded healthy only
while its own release is the one installed last. -/
theorem rollback_is_final (P : Platform) (r : Run)
    (honest : Throughout (fun _ _ e => e.AcksOnly) (r.past P))
    (hC : Throughout (fun past h e => e.ReadsNoLateAck P past h) (r.past P)) :
    Throughout (fun past h e => e.KeepsRollback P past h ∧ e.RecordsInstalled h) (r.past P) := by
  have hboth : Throughout (fun past h e => e.AcksOnly ∧ e.ReadsNoLateAck P past h) (r.past P) :=
    honest.and hC
  refine (r.supervised_uses P).throughout (I := fun past h => Placed P past h ∧
    Witnessed P past h) hboth (fun past h => placed_of_supervised) ?_
  rintro past h e _ ⟨hi, hw⟩ - ⟨he, rfl⟩
  refine ⟨⟨fun hroll => ?_, fun hroll hseeds => ?_, fun hroll hseeds => ?_⟩, fun r hr =>
    (he.recorded_healthy hw hr).2⟩
  · cases hr : e.recordsHealthy with
    | none => rfl
    | some r => exact absurd (he.recorded_healthy hw hr).1 (by rw [hroll]; simp)
  · rw [Event.ledger_apply]
    cases hP : he with
    | arm rule =>
      obtain ⟨startedAt, deadline, rfl⟩ := rule.ledger
      exact ⟨rfl, rfl⟩
    | @promote config p r' l inForce rule =>
      have hrec : (Event.wroteLedger (.record config r') l).recordsHealthy = some r' :=
        if_pos rule.outcome
      exact absurd (he.recorded_healthy hw hrec).1 (by rw [hroll]; simp)
    | abandon inForce rule => exact rule.floor
    | raise rule => cases hseeds
    | _ => exact ⟨rfl, rfl⟩
  · rw [Event.journal_apply]
    cases he with
    | accept inForce rule => exact rule.active
    | renew inForce rule => exact rule.active
    | @settle q outcome j rule =>
      have hne : outcome ≠ "healthy" := by
        rintro rfl
        have hnot := (hi.promoted q rule.pending rule.finished).2
        rw [hroll] at hnot
        cases hnot
      rw [show j.active = (h.journal.settled outcome q.release).active from
        congrArg Journal.active rule.journal]
      exact if_neg hne
    | activate rule => cases hseeds
    | _ => rfl

section LateAck

open Sample

/-- A release whose restart is reported as failed is rolled back. -/
def rollingBack : Run := on [
  (seeding none current, quietly 40),
  (supervising none 1, request nonce₁ newer :: quietly 43 ++ failed :: quietly 40)]

theorem rollback_is_final_rollingBack :
    Throughout (fun past h e => e.KeepsRollback platform past h ∧ e.RecordsInstalled h)
      (rollingBack.past platform) := by
  have hrun : Throughout (fun _ _ e => e.AcksOnly) (rollingBack.past platform) ∧
      Throughout (fun past h e => e.ReadsNoLateAck platform past h)
        (rollingBack.past platform) := by
    decide +kernel
  exact rollback_is_final platform rollingBack hrun.1 hrun.2

/-- ... and here the new release acknowledges its health before it is replaced,
and the supervisor is killed right after the previous package is back. -/
def lateAck : Run := on [
  (seeding none current, quietly 40),
  (supervising none 1,
    request nonce₁ newer :: quietly 43 ++ failed :: after .ackHealth :: quietly 4),
  (supervising none 1, quietly 20)]

/-- **A late acknowledgement promotes a release that was rolled back.** -/
theorem rolled_back_then_promoted :
    Throughout (fun _ _ e => e.AcksOnly) (lateAck.past platform) ∧
      ¬ Throughout (fun past h e => e.KeepsRollback platform past h ∧ e.RecordsInstalled h)
        (lateAck.past platform) := by
  decide +kernel

end LateAck

end Lariska
