import Lariska.SupervisorRuns

/-!
# The agreement of the two documents

The journal and the ledger are written one after the other, by four
operations, and a crash can fall between any two writes. What holds at every
such point is that a transaction of the journal is the one the ledger has
pending or has just finished, and that a transaction only the ledger has is
one whose receipt is on record – or one the emergency override admitted under
the floor, whose receipt a later process without the override has dropped.
-/

namespace Lariska

variable (P : Platform) (Configs : Config → Prop)

/-- The receipt of a pending release may have been dropped: the floor rejects
it, a process admitted it under the override, and another ran without one. -/
structure UpdateLedger.Lapsed (l : UpdateLedger) (p : PendingUpdate) : Prop where
  rejected : l.Rejects P p.version p.sequence
  overridden : ∃ config, Configs config ∧ config.admits p.version = true
  cleared : ∃ config, Configs config ∧ config.updates.emergencyVersion = none

/-- **The agreement of the documents.** -/
structure Host.Agrees (h : Host) : Prop where
  /-- A transaction of the journal is the one the ledger has pending, or the
  one it has finished last. -/
  journaled : ∀ q, h.journal.pending = some q →
    (h.ledger P).Awaits q.receipt ∨ ∃ outcome, (h.ledger P).Finished q.receipt outcome
  /-- The receipt of a transaction of the journal is on record. -/
  recorded : ∀ q, h.journal.pending = some q → q.receipt ∈ h.journal.consumed
  /-- So is that of a transaction only the ledger has, unless it has lapsed. -/
  committed : ∀ p, (h.ledger P).pending = some p → h.journal.pending = none →
    p.receipt ∈ h.journal.consumed ∨ (h.ledger P).Lapsed P Configs p
  /-- No other receipt is under the nonce of a transaction only the ledger
  has, nor is the active package in a directory of that name. -/
  unclaimed : ∀ p, (h.ledger P).pending = some p → h.journal.pending = none →
    (∀ r ∈ h.journal.consumed, r.nonce = p.nonce → r = p.receipt) ∧
    ∀ a, h.journal.active = some a → a.directory ≠ p.nonce
  /-- A pending release was admitted. -/
  admitted : ∀ p, (h.ledger P).pending = some p →
    ∃ config, Configs config ∧ config.Admitted P (h.ledger P) p.version p.sequence

variable {P Configs} {past : Past Host Event} {h : Host} {e : Event}

/-- Documents that are not written keep agreeing. -/
theorem Host.Agrees.congr {h' : Host} (ha : h.Agrees P Configs) (hj : h'.journal = h.journal)
    (hl : h'.ledger P = h.ledger P) : h'.Agrees P Configs where
  journaled := by
    rw [hj, hl]
    exact ha.journaled
  recorded := by
    rw [hj]
    exact ha.recorded
  committed := by
    rw [hj, hl]
    exact ha.committed
  unclaimed := by
    rw [hj, hl]
    exact ha.unclaimed
  admitted := by
    rw [hl]
    exact ha.admitted

/-- What `remember_consumed_nonce` keeps of a receipt it does not prune. -/
theorem Reserves.lapsed {config : Config} {receipt : ConsumedRequest} {j : Journal}
    {p : PendingUpdate} (hr : Reserves P config h receipt j) (hin : Configs config)
    (ha : h.Agrees P Configs) (hp : (h.ledger P).pending = some p)
    (hmem : p.receipt ∈ h.journal.consumed) :
    p.receipt ∈ j.consumed ∨ (h.ledger P).Lapsed P Configs p := by
  refine (hr.kept _ hmem).imp_right fun hprunes => ?_
  obtain ⟨config', hin', hadmitted⟩ := ha.admitted p hp
  refine ⟨hprunes.rejected, ⟨config', hin', ?_⟩, ⟨config, hin, hprunes.noOverride⟩⟩
  exact hadmitted.resolve_right fun hclears => hclears.not_rejects hprunes.rejected

/-- The reservation of an accepted request leaves the documents in agreement:
the ledger has nothing pending. -/
theorem Host.Agrees.accept {config : Config} {receipt : ConsumedRequest} {j : Journal}
    (rule : Accepts P config h receipt j) : (h.setJournal j).Agrees P Configs := by
  have hnone : ∀ p, (h.ledger P).pending ≠ some p := fun p => by
    rw [rule.idle]
    simp
  refine ⟨fun q hq => ?_, fun q hq => ?_, fun p hp => absurd hp (hnone p),
    fun p hp => absurd hp (hnone p), fun p hp => absurd hp (hnone p)⟩
  · exact absurd hq (by rw [Host.journal_setJournal, rule.pending]; simp)
  · exact absurd hq (by rw [Host.journal_setJournal, rule.pending]; simp)

/-- So does renewing a receipt. -/
theorem Host.Agrees.renew {config : Config} {receipt : ConsumedRequest} {j : Journal}
    (ha : h.Agrees P Configs) (hin : Configs config) (rule : Renews P config h receipt j) :
    (h.setJournal j).Agrees P Configs := by
  refine ⟨fun q hq => ?_, fun q hq => ?_, fun p hp hnone => ?_, fun p hp hnone => ?_,
    ha.admitted⟩
  · rw [Host.journal_setJournal, rule.pending] at hq
    exact ha.journaled q hq
  · -- Of the three reasons to renew only the transaction's own fits a journal that has one.
    rw [Host.journal_setJournal, rule.pending] at hq
    rw [Host.journal_setJournal]
    rcases rule.known with ⟨hnone, -⟩ | ⟨hnone, -⟩ | ⟨q', hq', hreceipt⟩
    · exact absurd hq (by rw [hnone]; simp)
    · exact absurd hq (by rw [hnone]; simp)
    · cases hq.symm.trans hq'
      exact hreceipt ▸ rule.recorded
  · rw [Host.journal_setJournal, rule.pending] at hnone
    rcases ha.committed p hp hnone with hmem | hlapsed
    · exact rule.toReserves.lapsed hin ha hp hmem
    · exact .inr hlapsed
  · rw [Host.journal_setJournal, rule.pending] at hnone
    obtain ⟨hunique, hactive⟩ := ha.unclaimed p hp hnone
    refine ⟨fun r hr hn => ?_, fun a haa => hactive a (rule.active ▸ haa)⟩
    rcases rule.fresh r hr with hr | rfl
    · exact hunique r hr hn
    · rcases rule.known with ⟨-, a, haa, hreceipt⟩ | ⟨-, p', hp', hreceipt⟩ | ⟨q, hq, -⟩
      · exact absurd (by rw [← hn, hreceipt]; rfl) (hactive a haa)
      · cases hp.symm.trans hp'
        exact hreceipt.symm
      · exact absurd hq (by rw [hnone]; simp)

/-- A transaction that is in both documents, or that the ledger has just
finished, is in agreement as soon as its receipt is on record. -/
theorem Host.Agrees.of_journaled {h' : Host} {q : Pending} (hq : h'.journal.pending = some q)
    (hagree : (h'.ledger P).Awaits q.receipt ∨
      ∃ outcome, (h'.ledger P).Finished q.receipt outcome)
    (hmem : q.receipt ∈ h'.journal.consumed)
    (hadmitted : ∀ p, (h'.ledger P).pending = some p →
      ∃ config, Configs config ∧ config.Admitted P (h'.ledger P) p.version p.sequence) :
    h'.Agrees P Configs := by
  refine ⟨fun q' hq' => ?_, fun q' hq' => ?_, fun p _ hnone => ?_, fun p _ hnone => ?_,
    hadmitted⟩
  · cases hq.symm.trans hq'
    exact hagree
  · cases hq.symm.trans hq'
    exact hmem
  · exact absurd hq (by rw [hnone]; simp)
  · exact absurd hq (by rw [hnone]; simp)

/-- Two documents without a transaction agree. -/
theorem Host.Agrees.of_idle {h' : Host} (hj : h'.journal.pending = none)
    (hl : (h'.ledger P).pending = none) : h'.Agrees P Configs := by
  refine ⟨fun q hq => ?_, fun q hq => ?_, fun p hp => ?_, fun p hp => ?_, fun p hp => ?_⟩
  · exact absurd hq (by rw [hj]; simp)
  · exact absurd hq (by rw [hj]; simp)
  · exact absurd hp (by rw [hl]; simp)
  · exact absurd hp (by rw [hl]; simp)
  · exact absurd hp (by rw [hl]; simp)

/-- A floor that has not moved admits what it admitted. -/
theorem Host.Agrees.still_admitted {l : UpdateLedger} {p p' : PendingUpdate}
    (ha : h.Agrees P Configs) (hp : (h.ledger P).pending = some p)
    (hs : (h.ledger P).SameFloor l) (hv : p'.version = p.version)
    (hseq : p'.sequence = p.sequence) :
    ∃ config, Configs config ∧ config.Admitted P l p'.version p'.sequence := by
  obtain ⟨config, hin, hadmitted⟩ := ha.admitted p hp
  exact ⟨config, hin, hv ▸ hseq ▸ hadmitted.congr hs⟩

/-- Closing a transaction leaves the journal's, if it has one, the last
finished. -/
theorem Host.Agrees.close {config : Config} {p : PendingUpdate} {r : HistoryEntry}
    {l : UpdateLedger} (ha : h.Agrees P Configs) (rule : Closes P config h p r l) :
    (h.setLedger l).Agrees P Configs := by
  cases hq : h.journal.pending with
  | none => exact .of_idle hq rule.closed
  | some q =>
    refine .of_journaled hq (.inr ⟨r.outcome, rule.closed, r, ?_, ?_, rfl⟩)
      (ha.recorded q hq) fun p' hp' => ?_
    · rw [Host.ledger_setLedger, rule.history]
      exact getLast_appendHistory rule.room _ _
    · rw [rule.receipt]
      rcases ha.journaled q hq with ⟨p', hp', hreceipt⟩ | ⟨_, hnone, -⟩
      · cases rule.pending.symm.trans hp'
        exact hreceipt
      · exact absurd rule.pending (by rw [hnone]; simp)
    · exact absurd hp' (by rw [Host.ledger_setLedger, rule.closed]; simp)

/-- **Every step keeps the documents in agreement.** -/
theorem Host.Agrees.keep (ha : h.Agrees P Configs) (hd : h.Distinct)
    (he : Permitted P Configs past h e) : (e.apply h).Agrees P Configs := by
  cases he with
  | accept inForce rule => exact .accept rule
  | renew inForce rule => exact ha.renew inForce rule
  | @enlist q rule => exact .of_journaled rfl (.inl rule.awaited) rule.consumed ha.admitted
  | @rearm q pending startedAt =>
    exact .of_journaled rfl (ha.journaled q pending) (ha.recorded q pending) ha.admitted
  | @settle q outcome j rule =>
    refine .of_idle ?_ rule.finished.1
    rw [show (Event.apply (.wroteJournal .settle j) h).journal = j from rfl, rule.journal]
    rfl
  | @activate r rule => exact .of_idle rule.idle rule.settled
  | @commit config p inForce rule =>
    -- The receipt was written a moment ago; no other is under the same nonce.
    refine ⟨fun q hq => ?_, fun q hq => ?_, fun p' hp' _ => ?_, fun p' hp' _ => ?_,
      fun p' hp' => ?_⟩
    · exact absurd hq (by rw [show (Event.apply _ h).journal = h.journal from rfl, rule.journal]; simp)
    · exact absurd hq (by rw [show (Event.apply _ h).journal = h.journal from rfl, rule.journal]; simp)
    · cases hp'
      exact .inl rule.consumed
    · cases hp'
      refine ⟨fun r hr hn => ?_, fun a haa => ?_⟩
      · exact List.inj_on_of_nodup_map hd hr rule.consumed hn
      · obtain ⟨a', ha', -, hdir⟩ := rule.previous
        cases haa.symm.trans ha'
        exact hdir
    · cases hp'
      exact ⟨config, inForce, rule.admitted.congr ⟨rfl, rfl⟩⟩
  | @arm p l rule =>
    obtain ⟨startedAt, deadline, rfl⟩ := rule.ledger
    obtain ⟨q, hq, hreceipt⟩ := rule.enlisted
    refine .of_journaled hq (.inl ⟨_, rfl, hreceipt.symm⟩) (ha.recorded q hq) fun p' hp' => ?_
    cases hp'
    exact ha.still_admitted rule.pending ⟨rfl, rfl⟩ rfl rfl
  | promote _ rule => exact ha.close rule.toCloses
  | abandon _ rule => exact ha.close rule.toCloses
  | @raise m l rule =>
    cases hq : h.journal.pending with
    | none => exact .of_idle hq rule.unpended
    | some q =>
      refine .of_journaled hq (.inr ?_) (ha.recorded q hq)
        fun p hp => absurd hp (by rw [show (Event.apply _ h).ledger P = l from rfl, rule.unpended]; simp)
      rcases ha.journaled q hq with ⟨p, hp, -⟩ | ⟨outcome, -, hlast⟩
      · exact absurd hp (by rw [rule.pending]; simp)
      · exact ⟨outcome, rule.unpended, by rw [show (Event.apply _ h).ledger P = l from rfl, rule.history]; exact hlast⟩
  | _ => exact ha.congr ((Event.journal_apply h _).trans rfl) ((Event.ledger_apply P h _).trans rfl)

/-- The documents agree after every history. -/
theorem agrees_of_supervised (hs : Supervised P Configs past h) : h.Agrees P Configs := by
  have key : h.Agrees P Configs ∧ h.Distinct := by
    refine hs.invariant' (I := fun _ h => h.Agrees P Configs ∧ h.Distinct) ?_ ?_
    · intro h hf
      have hroot : h.root = ⟨none, none, []⟩ := hf
      refine ⟨.of_idle ?_ ?_, ?_⟩
      · rw [Host.journal, hroot]
        rfl
      · rw [Host.ledger, hroot]
        rfl
      · rw [Host.Distinct, Host.journal, hroot]
        exact List.nodup_nil
    · rintro past h e _ ⟨ha, hd⟩ ⟨he, rfl⟩
      exact ⟨ha.keep hd he, hd.keep he⟩
  exact key.1

end Lariska
