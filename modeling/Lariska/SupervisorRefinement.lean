import Lariska.SupervisorWrites

/-!
# The programs refine the transition system

Every run of the supervisor's processes, from a host it has not run on, is a
history of the transition system: `supervised_runAll`. Each operation is
taken through its program once, in the order of its effects. What is carried
from one operation to the next is how the `journal` variable stands to the
two documents – `Idle` while requests are examined, `Underway` while a
transaction is in both documents.
-/

namespace Lariska

open Prog (lift need ensure attempt guarded)

variable {P : Platform} {Configs : Config → Prop} {config : Config} {w : World}

/-- A configuration processes may run under: one that is in force, and that
loading it has validated. -/
structure Loaded (P : Platform) (Configs : Config → Prop) (config : Config) : Prop where
  inForce : Configs config
  sound : config.updates.validate P = .ok ()

/-! ## Rolling back -/

/-- **A transaction is under way**: both documents have it pending, and the
variable differs from the file at most in when it started. -/
structure Underway (P : Platform) (Configs : Config → Prop) (w : World) : Prop where
  valid : Valid P Configs w
  active : w.journal.active = w.host.journal.active
  consumed : w.journal.consumed = w.host.journal.consumed
  pending : ∃ q startedAt, w.host.journal.pending = some q ∧
    w.journal.pending = some { q with startedAt } ∧ (w.host.ledger P).Awaits q.receipt

/-- **No transaction is under way in the variable**, and in the file at most
one the ledger has recorded as rolled back. -/
structure Idle (P : Platform) (Configs : Config → Prop) (config : Config) (w : World) : Prop
    extends Ahead P config w where
  valid : Valid P Configs w
  pending : w.journal.pending = none
  quiet : w.host.Quiet P

theorem Host.Quiet.congr {h h' : Host} (hq : h.Quiet P) (hj : h'.journal = h.journal)
    (hl : h'.ledger P = h.ledger P) : h'.Quiet P := by
  unfold Host.Quiet
  rw [hj, hl]
  exact hq

theorem Idle.sameDocs {w' : World} (h : Idle P Configs config w) (hd : SameDocs w w')
    (hv : Valid P Configs w') : Idle P Configs config w' :=
  ⟨h.toAhead.sameDocs hd, hv, hd.journal ▸ h.pending, h.quiet.congr hd.onDisk (hd.ledger P)⟩

theorem Idle.calm {w' : World} (h : Idle P Configs config w) (hc : Calm w w') :
    Idle P Configs config w' := h.sameDocs hc.sameDocs (h.valid.calm hc)

/-- The variable as read from disk, without a pending transaction. -/
theorem Idle.of_eq (hv : Valid P Configs w) (hj : w.journal = w.host.journal)
    (hp : w.journal.pending = none) : Idle P Configs config w :=
  ⟨Ahead.of_eq hv hj, hv, hp, fun q hq => absurd (hj ▸ hq) (by rw [hp]; simp)⟩

/-- How an acceptance or a rollback may leave the variable when it fails. -/
def Resting (P : Platform) (Configs : Config → Prop) (config : Config) (w : World) : Prop :=
  Valid P Configs w ∧ (w.journal.pending ≠ none ∨ Idle P Configs config w)

theorem Resting.calm {w' : World} (h : Resting P Configs config w) (hc : Calm w w') :
    Resting P Configs config w' :=
  ⟨h.1.calm hc, h.2.imp (fun hp => hc.journal ▸ hp) (fun hi => hi.calm hc)⟩

/-- What a finished rollback leaves: the variable as on disk, nothing pending. -/
structure Settled (P : Platform) (Configs : Config → Prop) (w : World) : Prop where
  valid : Valid P Configs w
  synced : w.journal = w.host.journal

theorem Settled.sameDocs {w' : World} (h : Settled P Configs w) (hd : SameDocs w w')
    (hv : Valid P Configs w') : Settled P Configs w' :=
  ⟨hv, hd.journal.trans (h.synced.trans hd.onDisk.symm)⟩

theorem Settled.calm {w' : World} (h : Settled P Configs w) (hc : Calm w w') :
    Settled P Configs w' := h.sameDocs hc.sameDocs (h.valid.calm hc)

/-- Writing the settled journal and pruning the cache. -/
theorem settle_leads {q : Pending} {outcome : String} (hv : Valid P Configs w)
    (pending : w.host.journal.pending = some q)
    (finished : (w.host.ledger P).Finished q.receipt outcome) :
    (do
      setJournal (w.host.journal.settled outcome q.release)
      writeJournal .settle
      pruneCache).Leads w
      (fun _ w' => Settled P Configs w' ∧ w'.journal.pending = none)
      (fun _ w' => Valid P Configs w' ∧ (Settled P Configs w' ∨
        Calm (w.holding (w.host.journal.settled outcome q.release)) w'))
      (Valid P Configs) := by
  refine Prog.leads_bind.mpr (Prog.leads_modify.mpr ?_)
  have hv₁ := hv.holding (w.host.journal.settled outcome q.release)
  refine Prog.leads_bind.mpr (writeJournal_leads hv₁ (fun w₂ hc₂ => ?_)
    (fun _ w₂ hc₂ => ⟨hv₁.calm hc₂, .inr hc₂⟩))
  have hrule : Settles P w₂.host q outcome (w.host.journal.settled outcome q.release) := by
    refine ⟨?_, ?_, ?_⟩
    · rw [hc₂.host_journal]
      exact pending
    · rw [hc₂.host_ledger P]
      exact finished
    · rw [hc₂.host_journal]
  have hsettled : Settled P Configs (w₂.happen (.wroteJournal .settle
      (w.host.journal.settled outcome q.release))) :=
    ⟨(hv₁.calm hc₂).happen (.settle hrule), hc₂.journal⟩
  refine Prog.Leads.mono (pruneCache_leads hsettled.valid (by rw [hsettled.synced]))
    (fun _ w₃ hk => ⟨hsettled.sameDocs hk.2 hk.1, ?_⟩)
    (fun _ w₃ hk => ⟨hk.1, .inl (hsettled.sameDocs hk.2 hk.1)⟩) (fun _ h => h)
  rw [hk.2.journal, World.happen_journal, hc₂.journal]
  rfl

/-- **`rollback_with` takes permitted steps**: it hands the active package to
the installer, records the transaction, and clears the journal. -/
theorem rollbackWith_leads {reason : String} (hl : Loaded P Configs config)
    (hu : Underway P Configs w) :
    (rollbackWith P config reason).Leads w
      (fun _ w' => Settled P Configs w' ∧ w'.journal.pending = none)
      (fun _ => Resting P Configs config) (Valid P Configs) := by
  obtain ⟨q, startedAt, hq, hpending, hawaits⟩ := hu.pending
  have hv := hu.valid
  -- While the variable still has the transaction, a failure leaves it there.
  have busy : ∀ w', Valid P Configs w' → w'.journal = w.journal →
      Resting P Configs config w' := fun w' hv' hj =>
    ⟨hv', .inl (by rw [hj, hpending]; simp)⟩
  have before : ∀ w', Calm w w' → Resting P Configs config w' := fun w' hc =>
    busy w' (hv.calm hc) hc.journal
  refine observes_getJournal.then (fun journal w₁ hc₁ hjournal => ?_) (fun _ _ hc => before _ hc)
    (fun _ hc => hv.calm hc)
  subst hjournal
  refine observes_need.then (fun pending w₂ hc₂ hp => ?_)
    (fun _ _ hc => before _ (hc₁.trans hc)) (fun _ hc => hv.calm (hc₁.trans hc))
  have hc₂' := hc₁.trans hc₂
  cases hpending.symm.trans hp
  refine observes_need.then (fun previous w₃ hc₃ hprevious => ?_)
    (fun _ _ hc => before _ (hc₂'.trans hc)) (fun _ hc => hv.calm (hc₂'.trans hc))
  have hc₃' := hc₂'.trans hc₃
  refine (verifyFilesForRecovery_observes P config previous.directory).then
    (fun m w₄ hc₄ hverified => ?_)
    (fun _ _ hc => before _ (hc₃'.trans hc)) (fun _ hc => hv.calm (hc₃'.trans hc))
  have hc₄' := hc₃'.trans hc₄
  refine verifySignatureNative_observes.then (fun _ w₅ hc₅ _ => ?_)
    (fun _ _ hc => before _ (hc₄'.trans hc)) (fun _ hc => hv.calm (hc₄'.trans hc))
  have hc₅' := hc₄'.trans hc₅
  have hactive : w.host.journal.active = some previous := hu.active.symm.trans hprevious
  -- The package installed back is the one the journal names: it is still stored.
  have hmanifest : previous.manifest = m := by
    have hstored := hv.cached previous (Journal.mem_releases.mpr (.inl hactive))
    exact (hverified.unique (hstored.congr (hc₃'.host_cache _))).symm
  have hverified₅ : w₅.host.Verified P config previous.directory m := by
    obtain ⟨d, artifact, hd, rest⟩ := hverified
    exact ⟨d, artifact, by rw [(hc₄.trans hc₅).host_cache, hd], rest⟩
  have hretreats : ∀ w', Calm w w' → Retreats P w'.host m q.nonce := by
    intro w' hc
    refine ⟨⟨q, ?_, rfl, ?_⟩, previous, ?_, hmanifest⟩
    · rw [hc.host_journal, hq]
    · rw [hc.host_ledger P]
      exact hawaits
    · rw [hc.host_journal, hactive]
  refine Prog.leads_bind.mpr (Prog.Leads.mono (install_leads (hv.calm hc₅') hverified₅
    (fun w' _ effective hc vouched => .retreat effective hl.inForce vouched
      (hretreats w' (hc₅'.trans hc)))) (fun _ w₆ h₆ => ?_)
    (fun _ w₆ h₆ => busy w₆ h₆.valid (h₆.journal.trans hc₅'.journal)) (fun _ h => h))
  obtain ⟨hhanded, hinstalled⟩ := h₆
  have hj₆ : w₆.journal = w.journal := hhanded.journal.trans hc₅'.journal
  refine restart_observes.then (fun _ w₇ hc₇ _ => ?_)
    (fun _ w' hc => busy w' (hhanded.valid.calm hc) (hc.journal.trans hj₆))
    (fun _ hc => hhanded.valid.calm hc)
  have hj₇ : w₇.journal = w.journal := hc₇.journal.trans hj₆
  have hdisk₇ : w₇.host.journal = w.host.journal :=
    hc₇.host_journal.trans (hhanded.host_journal.trans hc₅'.host_journal)
  have hledger₇ : w₇.host.ledger P = w.host.ledger P :=
    (hc₇.host_ledger P).trans ((hhanded.host_ledger P).trans (hc₅'.host_ledger P))
  have hv₇ := hhanded.valid.calm hc₇
  refine Prog.leads_bind.mpr (Prog.Leads.mono (finishUpdate_leads false hv₇ hl.sound
    ?_) (fun _ w₈ h₈ => ?_) (fun _ w₈ hc₈ => busy w₈ (hv₇.calm hc₈) (hc₈.journal.trans hj₇))
    (fun _ h => h))
  · -- The record is one of a transaction that has been undone.
    intro w' p now l hc hcloses _ _ hsame
    refine .abandon hl.inForce ⟨hcloses, rfl, hsame rfl, .inr ⟨q, previous, ?_, ?_, ?_, ?_⟩⟩
    · rw [hc.host_journal, hdisk₇, hq]
    · obtain ⟨p', hp', hreceipt⟩ := hawaits
      have hcp := hcloses.pending
      rw [hc.host_ledger P, hledger₇, hp'] at hcp
      cases hcp
      exact hreceipt.symm
    · rw [hc.host_journal, hdisk₇, hactive]
    · rw [hc.installed, hc₇.installed, hinstalled, hmanifest]
  · have hfinished : (w₈.host.ledger P).Finished q.receipt "rolled_back" := by
      obtain ⟨p, hp, -, hfin⟩ := h₈.finished
      obtain ⟨p', hp', hreceipt⟩ := hawaits
      rw [hledger₇, hp'] at hp
      cases hp
      exact hreceipt ▸ hfin
    have hdisk₈ : w₈.host.journal = w.host.journal := h₈.onDisk.trans hdisk₇
    have hjournal : (⟨w.journal.active, none, w.journal.consumed⟩ : Journal) =
        w₈.host.journal.settled "rolled_back" q.release := by
      rw [hdisk₈, hu.active, hu.consumed]
      rfl
    have hsettle := settle_leads h₈.valid (by rw [hdisk₈, hq]) hfinished
    rw [← hjournal] at hsettle
    refine Prog.Leads.mono hsettle (fun _ _ h => h) (fun _ w₉ h₉ => ?_) (fun _ h => h)
    refine ⟨h₉.1, ?_⟩
    rcases h₉.2 with hs | hc
    · by_cases hp : w₉.journal.pending = none
      · exact .inr (Idle.of_eq hs.valid hs.synced hp)
      · exact .inl hp
    · -- The write failed: the file still names a transaction recorded as rolled back.
      have hquiet : w₉.host.Quiet P := by
        intro q' hq'
        rw [hc.host_ledger P]
        rw [hc.host_journal, World.holding_host, hdisk₈, hq] at hq'
        cases hq'
        exact hfinished
      refine .inr ⟨⟨?_, ?_, ?_⟩, h₉.1, congrArg Journal.pending hc.journal, hquiet⟩
      · rw [hc.journal, hc.host_journal, World.holding_host, hdisk₈]
        exact hu.active
      · rw [hc.journal]
        show (w.journal.consumed.map ConsumedRequest.nonce).Nodup
        rw [hu.consumed]
        exact hv.distinct
      · intro r hr
        rw [hc.host_journal, World.holding_host, hdisk₈, ← hu.consumed] at hr
        rw [hc.journal]
        exact .inl hr

/-! ## Accepting a request -/

/-- **What the acceptance has set up when it calls the installer**: both
documents name the transaction, its receipt was reserved for this
installation, and its package is verified. -/
structure Enlisted (P : Platform) (Configs : Config → Prop) (config : Config) (nonce : String)
    (m : ReleaseManifest) (w : World) : Prop where
  valid : Valid P Configs w
  synced : w.journal = w.host.journal
  pending : ∃ startedAt, w.host.journal.pending = some ⟨⟨m, nonce⟩, nonce, startedAt⟩
  awaits : (w.host.ledger P).Awaits (m.receipt nonce)
  reserved : reserved w.trace = some (m.receipt nonce)
  admitted : config.Admitted P (w.host.ledger P) m.version m.sequence
  verified : w.host.Verified P config nonce m

theorem Host.Verified.congr {h h' : Host} {directory : String} {m : ReleaseManifest}
    (hv : h.Verified P config directory m) (hcache : h'.cache directory = h.cache directory) :
    h'.Verified P config directory m := by
  obtain ⟨d, artifact, hd, rest⟩ := hv
  exact ⟨d, artifact, hcache.trans hd, rest⟩

theorem Enlisted.calm {nonce : String} {m : ReleaseManifest} {w' : World}
    (h : Enlisted P Configs config nonce m w) (hc : Calm w w') :
    Enlisted P Configs config nonce m w' where
  valid := h.valid.calm hc
  synced := by rw [hc.journal, hc.host_journal, h.synced]
  pending := by
    rw [hc.host_journal]
    exact h.pending
  awaits := by
    rw [hc.host_ledger P]
    exact h.awaits
  reserved := hc.reserved.trans h.reserved
  admitted := by
    rw [hc.host_ledger P]
    exact h.admitted
  verified := h.verified.congr (hc.host_cache nonce)

/-- The floor check does not see what does not move the floor. -/
theorem Config.Admitted.congr {l l' : UpdateLedger} {version : String} {sequence : Nat}
    (h : config.Admitted P l version sequence) (hs : l.SameFloor l') :
    config.Admitted P l' version sequence := by
  refine h.imp_right fun ⟨floor, candidate, hf, hc, hle, hseq⟩ =>
    ⟨floor, candidate, hs.version ▸ hf, hc, hle, hs.sequence.trans_le hseq⟩

/-- A floor that has not moved rejects the same receipts. -/
theorem Config.Prunes.congr {l l' : UpdateLedger} {r : ConsumedRequest}
    (h : config.Prunes P l r) (hs : l.SameFloor l') : config.Prunes P l' r :=
  h.mono hs.le

/-- The ledger has opened a transaction the file does not name yet. -/
theorem Idle.opened {receipt : ConsumedRequest} {w' : World} (hi : Idle P Configs config w)
    (hnone : w.host.journal.pending = none) (ho : Opened P Configs receipt w w') :
    Idle P Configs config w' where
  active := by rw [ho.journal, ho.onDisk, hi.active]
  nodup := by
    rw [ho.journal]
    exact hi.nodup
  kept := by
    rw [ho.journal, ho.onDisk]
    exact fun r hr => (hi.kept r hr).imp_right fun hp => hp.congr ho.floor
  valid := ho.valid
  pending := by rw [ho.journal, hi.pending]
  quiet := fun q hq => absurd (ho.onDisk ▸ hq) (by rw [hnone]; simp)

/-- The receipts of a failed reservation leave the variable idle. -/
theorem Idle.unrecorded {w' : World} (hi : Idle P Configs config w)
    (hu : Unrecorded P config w w') : Idle P Configs config w' := by
  obtain ⟨consumed, hc, ha⟩ := hu
  refine ⟨ha, (hi.valid.holding _).calm hc, ?_, hi.quiet.congr hc.host_journal (hc.host_ledger P)⟩
  rw [hc.journal]
  exact hi.pending

/-- The last effects of the enlisting: the journal entry. -/
theorem enlistPending_leads {nonce : String} {m : ReleaseManifest}
    (hi : Idle P Configs config w) (hsynced : w.journal = w.host.journal)
    (hnames : w.host.journal.names nonce = false)
    (hawaits : (w.host.ledger P).Awaits (m.receipt nonce))
    (hreserved : Lariska.reserved w.trace = some (m.receipt nonce))
    (hcleared : Lariska.cleared w.trace = true)
    (hconsumed : m.receipt nonce ∈ w.host.journal.consumed)
    (hadmitted : config.Admitted P (w.host.ledger P) m.version m.sequence)
    (hverified : w.host.Verified P config nonce m) :
    (do
      let started ← clockNow
      let journal ← getJournal
      let pending : Pending := ⟨⟨m, nonce⟩, nonce, started⟩
      setJournal { journal with pending := some pending }
      writeJournal (.enlist pending)
      pure m).Leads w
      (fun m' w' => m' = m ∧ Enlisted P Configs config nonce m w')
      (fun _ w' => Resting P Configs config w' ∧ w'.host.journal.names nonce = false)
      (Valid P Configs) := by
  have before : ∀ w', Calm w w' →
      Resting P Configs config w' ∧ w'.host.journal.names nonce = false := fun w' hc =>
    ⟨⟨hi.valid.calm hc, .inr (hi.calm hc)⟩, by rw [hc.host_journal, hnames]⟩
  refine observes_clockNow.then (fun started w₁ hc₁ _ => ?_) (fun _ _ hc => before _ hc)
    (fun _ hc => hi.valid.calm hc)
  refine observes_getJournal.then (fun journal w₂ hc₂ hjournal => ?_)
    (fun _ _ hc => before _ (hc₁.trans hc)) (fun _ hc => hi.valid.calm (hc₁.trans hc))
  have hc₂' := hc₁.trans hc₂
  have hjournal : journal = w.host.journal := hjournal.trans (hc₁.journal.trans hsynced)
  subst hjournal
  have hv₃ := (hi.valid.calm hc₂').holding
    ⟨w.host.journal.active, some ⟨⟨m, nonce⟩, nonce, started⟩, w.host.journal.consumed⟩
  refine Prog.leads_bind.mpr (Prog.leads_modify.mpr ?_)
  refine Prog.leads_bind.mpr (writeJournal_leads hv₃ (fun w₄ hc₄ => ?_) (fun _ w₄ hc₄ => ?_))
  · have hdisk : w₄.host.journal = w.host.journal := hc₄.host_journal.trans hc₂'.host_journal
    have hledger : w₄.host.ledger P = w.host.ledger P :=
      (hc₄.host_ledger P).trans (hc₂'.host_ledger P)
    have hcache : ∀ name, w₄.host.cache name = w.host.cache name := fun name =>
      (hc₄.host_cache name).trans (hc₂'.host_cache name)
    have hrule : Enlists P w₄.trace w₄.host ⟨⟨m, nonce⟩, nonce, started⟩ := by
      refine ⟨?_, ?_, ?_, rfl, ?_, hc₄.cleared (hc₂'.cleared hcleared)⟩
      · rw [hdisk, ← hsynced, hi.pending]
      · rw [hledger]
        exact hawaits
      · rw [hdisk]
        exact hconsumed
      · exact hverified.stores.congr (hcache nonce)
    have hpermit := @Permitted.enlist P Configs _ _ _ hrule
    rw [hdisk] at hpermit
    refine (Prog.leads_pure _).mpr ⟨rfl, (hv₃.calm hc₄).happen hpermit, hc₄.journal,
      ⟨started, rfl⟩, ?_, ?_, ?_, hverified.congr (hcache nonce)⟩
    · show (w₄.host.ledger P).Awaits _
      rw [hledger]
      exact hawaits
    · exact hc₄.reserved.trans (hc₂'.reserved.trans hreserved)
    · show config.Admitted P (w₄.host.ledger P) _ _
      rw [hledger]
      exact hadmitted
  · refine ⟨⟨hv₃.calm hc₄, .inl ?_⟩, ?_⟩
    · rw [hc₄.journal]
      simp
    · rw [hc₄.host_journal]
      show w₂.host.journal.names nonce = false
      rw [hc₂'.host_journal, hnames]

/-- The reservation, the commit and the journal entry of a verified request. -/
theorem reserveRequest_leads {nonce : String} {m : ReleaseManifest} {previous : CachedRelease}
    (hl : Loaded P Configs config) (hi : Idle P Configs config w)
    (hfresh : ∀ r ∈ w.journal.consumed, r.nonce ≠ nonce)
    (hprevious : w.journal.active = some previous)
    (hnames : w.host.journal.names nonce = false)
    (hversion : m.version ≠ previous.manifest.version)
    (hidle : (w.host.ledger P).pending = none)
    (hunrefused : config.admits m.version = true ∨ (w.host.ledger P).refuses m = false)
    (hadmitted : config.Admitted P (w.host.ledger P) m.version m.sequence)
    (hverified : w.host.Verified P config nonce m) :
    (do
      rememberConsumedNonce P config true (m.receipt nonce)
      commitPending P config m nonce
      let started ← clockNow
      let journal ← getJournal
      let pending : Pending := ⟨⟨m, nonce⟩, nonce, started⟩
      setJournal { journal with pending := some pending }
      writeJournal (.enlist pending)
      pure m).Leads w
      (fun m' w' => m' = m ∧ Enlisted P Configs config nonce m w')
      (fun _ w' => Resting P Configs config w' ∧ w'.host.journal.names nonce = false)
      (Valid P Configs) := by
  have hactive : w.host.journal.active = some previous := hi.active.symm.trans hprevious
  refine Prog.leads_bind.mpr (Prog.Leads.mono (rememberConsumedNonce_leads hi.valid hi.toAhead
    fun w' j hc _ hp _ hr => .accept hl.inForce ⟨hr, ?_, ?_, hp.trans hi.pending, ?_, ?_⟩)
    (fun _ w₁ h₁ => ?_) (fun _ w₁ h₁ => ?_) (fun _ h => h))
  · exact hi.quiet.congr hc.host_journal (hc.host_ledger P)
  · rw [← World.holding_host (w := w') w.journal, hc.host_ledger P, hidle]
  · -- A receipt on disk under this nonce is one the variable has lost.
    intro r hr hn
    rw [← World.holding_host (w := w') w.journal, hc.host_journal] at hr
    rw [← World.holding_host (w := w') w.journal, hc.host_ledger P]
    exact (hi.kept r hr).resolve_left fun hmem => hfresh r hmem hn
  · rw [← World.holding_host (w := w') w.journal, hc.host_ledger P]
    exact hadmitted
  · obtain ⟨hsynced, hreserved⟩ := h₁.written hfresh
    have hreserved := hreserved rfl
    have hdisk : w₁.host.journal.active = some previous := by
      rw [← hsynced, h₁.active, hprevious]
    have hnone : w₁.journal.pending = none := h₁.pending.trans hi.pending
    have hi₁ : Idle P Configs config w₁ := Idle.of_eq h₁.valid hsynced hnone
    have hnames₁ : w₁.host.journal.names nonce = false := by
      rw [Journal.names_eq_false] at hnames ⊢
      intro r hr
      rw [Journal.mem_releases, ← hsynced, hnone, h₁.active] at hr
      refine hnames r (Journal.mem_releases.mpr (.inl ?_))
      rw [← hi.active]
      exact hr.resolve_right fun ⟨_, hq, _⟩ => absurd hq (by simp)
    have hrule : ∀ (w' : World) (p : PendingUpdate), Calm w₁ w' →
        p.receipt = m.receipt nonce → Commits P config w'.trace w'.host p := by
      intro w' p hc hp
      have hversion' : p.version = m.version := congrArg ConsumedRequest.version hp
      have hsequence : p.sequence = m.sequence := congrArg ConsumedRequest.sequence hp
      have hnonce : p.nonce = nonce := congrArg ConsumedRequest.nonce hp
      have hledger : w'.host.ledger P = w.host.ledger P :=
        (hc.host_ledger P).trans h₁.ledger
      refine ⟨?_, ?_, ?_, ?_, ?_, ⟨previous, ?_, ?_, ?_⟩, ?_⟩
      · rw [hledger, hidle]
      · rw [hc.host_journal, ← hsynced, hnone]
      · rw [hc.reserved, hreserved, hp]
      · rw [hc.host_journal, ← hsynced, hp]
        exact h₁.recorded
      · rw [hledger, hversion', hsequence]
        exact hadmitted
      · rw [hc.host_journal, hdisk]
      · rw [hversion']
        exact hversion.symm
      · rw [hnonce]
        exact Journal.names_eq_false.mp hnames previous
          (Journal.mem_releases.mpr (.inl hactive))
      · rw [hledger, hversion', hsequence]
        refine hunrefused.imp_right fun href r hr hfailed hv hs => ?_
        have hany := List.any_eq_false.mp href r hr
        simp [hfailed, hv, hs] at hany
    refine Prog.leads_bind.mpr (Prog.Leads.mono (commitPending_leads h₁.valid
      fun w' p hc hp => ?_) (fun _ w₂ h₂ => ?_) (fun _ w₂ h₂ => ?_) (fun _ h => h))
    · rw [← hc.host_ledger P]
      exact .commit hl.inForce (hrule w' p hc hp)
    · obtain ⟨hopened, hcleared⟩ := h₂
      refine enlistPending_leads (hi₁.opened (by rw [← hsynced, hnone]) hopened) ?_ ?_
        hopened.awaits (hopened.reserved.trans hreserved) hcleared ?_ ?_ ?_
      · rw [hopened.journal, hopened.onDisk, hsynced]
      · rw [hopened.onDisk, hnames₁]
      · rw [hopened.onDisk, ← hsynced]
        exact h₁.recorded
      · refine Config.Admitted.congr ?_ hopened.floor
        rw [h₁.ledger]
        exact hadmitted
      · exact hverified.congr ((hopened.caches nonce).trans (h₁.caches nonce))
    · rcases h₂ with hc | hopened
      · exact ⟨⟨h₁.valid.calm hc, .inr (hi₁.calm hc)⟩, by rw [hc.host_journal, hnames₁]⟩
      · exact ⟨⟨hopened.valid, .inr (hi₁.opened (by rw [← hsynced, hnone]) hopened)⟩,
          by rw [hopened.onDisk, hnames₁]⟩
  · have hi₁ := hi.unrecorded h₁
    obtain ⟨consumed, hc, -⟩ := h₁
    refine ⟨⟨hi₁.valid, .inr hi₁⟩, ?_⟩
    rw [hc.host_journal, World.holding_host, hnames]

/-- **The part of `accept_request_with` under its cleanup guard.** When it
fails, the journal on disk does not name the request's directory. -/
theorem enlistRequest_leads (nonce : String) (previous : CachedRelease)
    (hl : Loaded P Configs config) (hi : Idle P Configs config w)
    (hfresh : ∀ r ∈ w.journal.consumed, r.nonce ≠ nonce)
    (hprevious : w.journal.active = some previous)
    (hnames : w.host.journal.names nonce = false) :
    (enlistRequest P config nonce previous).Leads w
      (fun m w' => Enlisted P Configs config nonce m w')
      (fun _ w' => Resting P Configs config w' ∧ w'.host.journal.names nonce = false)
      (Valid P Configs) := by
  have before : ∀ w', Calm w w' →
      Resting P Configs config w' ∧ w'.host.journal.names nonce = false := fun w' hc =>
    ⟨⟨hi.valid.calm hc, .inr (hi.calm hc)⟩, by rw [hc.host_journal, hnames]⟩
  refine (verifyFiles_observes P config nonce).then (fun m w₁ hc₁ hm => ?_)
    (fun _ _ hc => before _ hc) (fun _ hc => hi.valid.calm hc)
  obtain ⟨hverified, -, -, hadmitted, hidle⟩ := hm
  refine observes_refuse.then (fun _ w₂ hc₂ hversion => ?_)
    (fun _ _ hc => before _ (hc₁.trans hc)) (fun _ hc => hi.valid.calm (hc₁.trans hc))
  have hc₂' := hc₁.trans hc₂
  -- What is left to do, once the history is known not to refuse the release.
  have rest : ∀ w', Calm w w' → (config.admits m.version = true ∨
      (w.host.ledger P).refuses m = false) → _ := fun w' hc href =>
    (verifySignatureNative_observes (w := w')).then
      (K := fun m w' => Enlisted P Configs config nonce m w')
      (E := fun _ w' => Resting P Configs config w' ∧ w'.host.journal.names nonce = false)
      (D := Valid P Configs)
      (fun _ w₄ hc₄ _ => Prog.Leads.mono (reserveRequest_leads (m := m) hl
        (hi.calm (hc.trans hc₄)) (by rw [(hc.trans hc₄).journal]; exact hfresh)
        ((congrArg Journal.active (hc.trans hc₄).journal).trans hprevious)
        (by rw [(hc.trans hc₄).host_journal]; exact hnames) hversion
        (by rw [(hc.trans hc₄).host_ledger P]; exact hidle)
        (by rw [(hc.trans hc₄).host_ledger P]; exact href)
        (by rw [(hc.trans hc₄).host_ledger P]; exact hadmitted)
        (hverified.congr ((hc.trans hc₄).host_cache nonce)))
        (fun m' w₅ h₅ => by rw [h₅.1]; exact h₅.2) (fun _ _ h => h) (fun _ h => h))
      (fun _ _ hc₄ => before _ (hc.trans hc₄)) (fun _ hc₄ => hi.valid.calm (hc.trans hc₄))
  dsimp only
  refine Prog.leads_ite (fun hadmits => ?_) (fun _ => ?_)
  · exact rest w₂ hc₂' (.inl hadmits)
  · refine (readLedger_observes P).then (fun ledger w₃ hc₃ hledger => ?_)
      (fun _ _ hc => before _ (hc₂'.trans hc)) (fun _ hc => hi.valid.calm (hc₂'.trans hc))
    refine observes_refuse.then (fun _ w₄ hc₄ href => ?_)
      (fun _ _ hc => before _ ((hc₂'.trans hc₃).trans hc))
      (fun _ hc => hi.valid.calm ((hc₂'.trans hc₃).trans hc))
    rw [hledger, hc₂'.host_ledger P] at href
    exact rest w₄ ((hc₂'.trans hc₃).trans hc₄) (.inr href)

/-- What both documents and the variable say of an enlisted transaction. -/
theorem Enlisted.underway {nonce : String} {m : ReleaseManifest}
    (h : Enlisted P Configs config nonce m w) : Underway P Configs w := by
  obtain ⟨startedAt, hp⟩ := h.pending
  exact ⟨h.valid, by rw [h.synced], by rw [h.synced], _, startedAt, hp, by rw [h.synced, hp],
    h.awaits⟩

theorem Underway.sameDocs {w' : World} (h : Underway P Configs w) (hd : SameDocs w w')
    (hv : Valid P Configs w') : Underway P Configs w' where
  valid := hv
  active := by rw [hd.journal, hd.onDisk, h.active]
  consumed := by rw [hd.journal, hd.onDisk, h.consumed]
  pending := by
    rw [hd.journal, hd.onDisk, hd.ledger]
    exact h.pending

theorem Underway.calm {w' : World} (h : Underway P Configs w) (hc : Calm w w') :
    Underway P Configs w' := h.sameDocs hc.sameDocs (h.valid.calm hc)

/-- **The installation proper**: the package goes to the installer, and
whatever fails afterwards leaves a transaction to roll back. -/
theorem installRequest_leads {nonce : String} {m : ReleaseManifest}
    (hl : Loaded P Configs config) (he : Enlisted P Configs config nonce m w) :
    (installRequest P config nonce m).Leads w (fun _ => Underway P Configs)
      (fun _ => Underway P Configs) (Valid P Configs) := by
  obtain ⟨startedAt, hpending⟩ := he.pending
  refine Prog.leads_bind.mpr (Prog.Leads.mono (install_leads he.valid he.verified
    fun w' bytes effective hc vouched => .advance effective hl.inForce vouched ?_)
    (fun _ w₁ h₁ => ?_) (fun _ w₁ h₁ => ?_) (fun _ h => h))
  · have he' := he.calm hc
    obtain ⟨startedAt', hp'⟩ := he'.pending
    exact ⟨he'.awaits, ⟨_, hp', rfl, rfl⟩, he'.reserved, he'.admitted⟩
  · obtain ⟨hhanded, -⟩ := h₁
    have hj₁ : w₁.journal = w.host.journal := hhanded.journal.trans he.synced
    have hdisk₁ : w₁.host.journal = w.host.journal := hhanded.host_journal
    have hawaits₁ : (w₁.host.ledger P).Awaits (m.receipt nonce) := by
      rw [hhanded.host_ledger P]
      exact he.awaits
    have hopened : ∀ w', Opened P Configs (m.receipt nonce) w₁ w' → Underway P Configs w' :=
      fun w' ho => ⟨ho.valid, by rw [ho.journal, ho.onDisk, hj₁, hdisk₁],
        by rw [ho.journal, ho.onDisk, hj₁, hdisk₁], ⟨⟨m, nonce⟩, nonce, startedAt⟩, startedAt,
        by rw [ho.onDisk, hdisk₁, hpending], by rw [ho.journal, hj₁, hpending], ho.awaits⟩
    refine Prog.leads_bind.mpr (Prog.Leads.mono (armHealth_leads hhanded.valid hawaits₁
      ⟨_, hdisk₁ ▸ hpending, rfl⟩) (fun armed w₂ ho => ?_) (fun _ w₂ ho => hopened w₂ ho)
      (fun _ h => h))
    refine observes_getJournal.then (fun journal w₃ hc₃ hjournal => ?_)
      (fun _ _ hc => (hopened w₂ ho).calm hc) (fun _ hc => ho.valid.calm hc)
    have hjournal : journal = w.host.journal := hjournal.trans (ho.journal.trans hj₁)
    subst hjournal
    -- The variable now has the time the window was armed at; the file follows.
    have hdisk₃ : w₃.host.journal = w.host.journal :=
      hc₃.host_journal.trans (ho.onDisk.trans hdisk₁)
    have hawaits₃ : (w₃.host.ledger P).Awaits (m.receipt nonce) := by
      rw [hc₃.host_ledger P]
      exact ho.awaits
    rw [hpending, Option.map_some]
    refine Prog.leads_bind.mpr (Prog.leads_modify.mpr ?_)
    have hu₃ : Underway P Configs (w₃.holding ⟨w.host.journal.active,
        some ⟨⟨m, nonce⟩, nonce, armed.startedAt⟩, w.host.journal.consumed⟩) :=
      ⟨(ho.valid.calm hc₃).holding _, by rw [World.holding_host, hdisk₃]; rfl,
        by rw [World.holding_host, hdisk₃]; rfl, ⟨⟨m, nonce⟩, nonce, startedAt⟩, armed.startedAt,
        by rw [World.holding_host, hdisk₃, hpending], rfl, hawaits₃⟩
    refine Prog.leads_bind.mpr (writeJournal_leads hu₃.valid (fun w₄ hc₄ => ?_)
      (fun _ _ hc₄ => hu₃.calm hc₄))
    have hdisk₄ : w₄.host.journal = w.host.journal := hc₄.host_journal.trans hdisk₃
    have hpermit := @Permitted.rearm P Configs w₄.trace w₄.host _
      (by rw [hdisk₄, hpending]) armed.startedAt
    rw [hdisk₄] at hpermit
    have hu₅ : Underway P Configs (w₄.happen (.wroteJournal .rearm ⟨w.host.journal.active,
        some ⟨⟨m, nonce⟩, nonce, armed.startedAt⟩, w.host.journal.consumed⟩)) := by
      refine ⟨(hu₃.valid.calm hc₄).happen hpermit, congrArg Journal.active hc₄.journal,
        congrArg Journal.consumed hc₄.journal, _, armed.startedAt, rfl, ?_, ?_⟩
      · exact congrArg Journal.pending hc₄.journal
      · show (w₄.host.ledger P).Awaits _
        rw [hc₄.host_ledger P]
        exact hawaits₃
    exact Prog.Leads.mono restart_observes (fun _ _ h => hu₅.calm h.1) (fun _ _ hc => hu₅.calm hc)
      (fun _ hc => hu₅.valid.calm hc)
  · refine ⟨h₁.valid, ?_, ?_, ⟨⟨m, nonce⟩, nonce, startedAt⟩, startedAt, ?_, ?_, ?_⟩
    · rw [h₁.journal, h₁.host_journal, he.synced]
    · rw [h₁.journal, h₁.host_journal, he.synced]
    · rw [h₁.host_journal, hpending]
    · rw [h₁.journal, he.synced, hpending]
    · rw [h₁.host_ledger P]
      exact he.awaits

theorem Underway.busy (h : Underway P Configs w) : Resting P Configs config w := by
  obtain ⟨q, startedAt, -, hp, -⟩ := h.pending
  exact ⟨h.valid, .inl (by rw [hp]; simp)⟩

/-- **`accept_request_with` takes permitted steps.** -/
theorem acceptRequestWith_leads {nonce : String} (hl : Loaded P Configs config)
    (hi : Idle P Configs config w) :
    (acceptRequestWith P config nonce).Leads w (fun _ => Resting P Configs config)
      (fun _ => Resting P Configs config) (Valid P Configs) := by
  have before : ∀ w', Calm w w' → Resting P Configs config w' := fun w' hc =>
    ⟨hi.valid.calm hc, .inr (hi.calm hc)⟩
  refine observes_refuse.then (fun _ w₁ hc₁ _ => ?_) (fun _ _ hc => before _ hc)
    (fun _ hc => hi.valid.calm hc)
  refine observes_getJournal.then (fun journal w₂ hc₂ hjournal => ?_)
    (fun _ _ hc => before _ (hc₁.trans hc)) (fun _ hc => hi.valid.calm (hc₁.trans hc))
  have hc₂' := hc₁.trans hc₂
  have hjournal : journal = w.journal := hjournal.trans hc₁.journal
  subst hjournal
  refine observes_refuse.then (fun _ w₃ hc₃ hfresh => ?_)
    (fun _ _ hc => before _ (hc₂'.trans hc)) (fun _ hc => hi.valid.calm (hc₂'.trans hc))
  have hc₃' := hc₂'.trans hc₃
  refine observes_need.then (fun previous w₄ hc₄ hprevious => ?_)
    (fun _ _ hc => before _ (hc₃'.trans hc)) (fun _ hc => hi.valid.calm (hc₃'.trans hc))
  have hc₄' := hc₃'.trans hc₄
  refine (verifyFilesForRecovery_observes P config previous.directory).then
    (fun _ w₅ hc₅ _ => ?_) (fun _ _ hc => before _ (hc₄'.trans hc))
    (fun _ hc => hi.valid.calm (hc₄'.trans hc))
  have hc₅' := hc₄'.trans hc₅
  refine Prog.leads_bind.mpr (Prog.Leads.mono (copyRequest_leads (hi.valid.calm hc₅'))
    (fun _ w₆ h₆ => ?_) (fun _ w₆ hk => ⟨hk.1, .inr ((hi.calm hc₅').sameDocs hk.2 hk.1)⟩)
    (fun _ h => h))
  obtain ⟨⟨hv₆, hd₆⟩, hnames⟩ := h₆
  have hi₆ := (hi.calm hc₅').sameDocs hd₆ hv₆
  have hj₆ : w₆.journal = w.journal := hd₆.journal.trans hc₅'.journal
  refine Prog.leads_bind.mpr (Prog.leads_guarded (Prog.Leads.mono (enlistRequest_leads
    nonce previous hl hi₆ (by rw [hj₆]; exact hfresh)
    (by rw [hj₆, hprevious]) hnames) (fun m w₇ h₇ => ?_) (fun _ w₇ h₇ => ?_) (fun _ h => h)))
  · refine (ackRequest_observes nonce "accepted").then (fun _ w₈ hc₈ _ => ?_)
      (fun _ _ hc => (h₇.calm hc).underway.busy) (fun _ hc => h₇.valid.calm hc)
    refine Prog.leads_bind.mpr (Prog.leads_attempt.mpr (Prog.Leads.mono
      (installRequest_leads hl (h₇.calm hc₈)) (fun _ w₉ hu => ?_) (fun fault w₉ hu => ?_)
      (fun _ h => h)))
    · exact (Prog.leads_pure _).mpr hu.busy
    · refine Prog.leads_bind.mpr (Prog.Leads.mono (rollbackWith_leads hl hu)
        (fun _ w' hs => (Prog.leads_fail _).mpr ⟨hs.1.valid, .inr ?_⟩) (fun _ _ h => h)
        (fun _ h => h))
      exact Idle.of_eq hs.1.valid hs.1.synced hs.2
  · -- The cleanup removes a directory the journal does not name.
    have hrest : ∀ w', KeepsDocs P Configs w₇ w' → Resting P Configs config w' := fun w' hk =>
      ⟨hk.1, h₇.1.2.imp (fun hp => hk.2.journal ▸ hp) (fun hidle => hidle.sameDocs hk.2 hk.1)⟩
    exact Prog.Leads.mono (removeDir_leads h₇.1.1 h₇.2) (fun _ w' hk => hrest w' hk)
      (fun _ w' hk => hrest w' hk) (fun _ h => h)

/-- The inner loop of `supervise`: it stops at the first request that leaves a
transaction in the variable. -/
theorem acceptAll_leads (hl : Loaded P Configs config) (entries : List String) :
    ∀ (examined : List String) (w : World), Idle P Configs config w →
      (acceptAll P config examined entries).Leads w (fun _ => Valid P Configs)
        (fun _ => Valid P Configs) (Valid P Configs) := by
  induction entries with
  | nil => exact fun _ w hi => (Prog.leads_pure _).mpr hi.valid
  | cons entry rest ih =>
    intro examined w hi
    unfold acceptAll
    refine Prog.leads_ite (fun _ => ih examined w hi) (fun _ => ?_)
    refine observes_get.then (fun w' w₁ hc₁ _ => ?_) (fun _ _ hc => hi.valid.calm hc)
      (fun _ hc => hi.valid.calm hc)
    have next : ∀ w₂ examined', Resting P Configs config w₂ →
        (do
          let journal ← getJournal
          if journal.pending ≠ none then pure examined'
          else acceptAll P config examined' rest).Leads w₂ (fun _ => Valid P Configs)
          (fun _ => Valid P Configs) (Valid P Configs) := by
      intro w₂ examined' hr
      refine observes_getJournal.then (fun journal w₃ hc₃ hjournal => ?_)
        (fun _ _ hc => hr.1.calm hc) (fun _ hc => hr.1.calm hc)
      refine Prog.leads_ite (fun _ => (Prog.leads_pure _).mpr (hr.1.calm hc₃)) (fun hp => ?_)
      rw [not_not, hjournal] at hp
      exact ih _ w₃ ((hr.2.resolve_left fun hne => hne hp).calm hc₃)
    dsimp only
    refine Prog.leads_bind.mpr (Prog.leads_attempt.mpr (Prog.Leads.mono
      (acceptRequestWith_leads hl (hi.calm hc₁)) (fun _ w₂ hr => ?_) (fun _ w₂ hr => ?_)
      (fun _ h => h)))
    · exact next w₂ _ hr
    · refine Observes.then (observes_ignore fun _ => ackRequest_observes entry "refused")
        (fun _ w₃ hc₃ _ => next w₃ _ (hr.calm hc₃)) (fun _ _ hc => hr.1.calm hc)
        (fun _ hc => hr.1.calm hc)

/-! ## Recovering -/

/-- A receipt on record leaves a variable read from disk as on disk. -/
theorem Recorded.settled {receipt : ConsumedRequest} {accepting : Bool} {w' : World}
    (hs : Settled P Configs w) (h : Recorded P Configs accepting receipt w w') :
    Settled P Configs w' := ⟨h.valid, h.synced hs.synced⟩

/-- Renewing the receipt of a release that is known, from a variable as on
disk. -/
theorem renew_leads {receipt : ConsumedRequest} (hl : Loaded P Configs config)
    (hs : Settled P Configs w)
    (known : w.host.journal.pending = none ∧
        (∃ a, w.host.journal.active = some a ∧ receipt = a.manifest.receipt a.directory) ∨
      w.host.journal.pending = none ∧ (w.host.ledger P).Awaits receipt ∨
      ∃ q, w.host.journal.pending = some q ∧ receipt = q.receipt) :
    (rememberConsumedNonce P config false receipt).Leads w
      (fun _ => Recorded P Configs false receipt w) (fun _ => Valid P Configs)
      (Valid P Configs) := by
  refine Prog.Leads.mono (rememberConsumedNonce_leads hs.valid (Ahead.of_eq hs.valid hs.synced)
    fun w' j hc _ hp hsub hr => .renew hl.inForce ⟨hr, ?_, ?_, ?_⟩) (fun _ _ h => h)
    (fun _ w' ⟨_, hc, _⟩ => (hs.valid.holding _).calm hc) (fun _ h => h)
  · have hdisk := hc.host_journal
    rw [World.holding_host] at hdisk
    rw [hp, hs.synced, hdisk]
  · have hdisk := hc.host_journal
    rw [World.holding_host] at hdisk
    rw [hdisk, ← hs.synced]
    exact hsub
  · have hdisk := hc.host_journal
    have hledger := hc.host_ledger P
    rw [World.holding_host] at hdisk hledger
    rw [hdisk, hledger]
    exact known

/-- **`recover_or_ack_with` when only the journal names a transaction**: one
the ledger has finished is completed. -/
theorem completeFinished_leads {q : Pending} (hl : Loaded P Configs config)
    (hs : Settled P Configs w) (hq : w.host.journal.pending = some q)
    (hnone : (w.host.ledger P).pending = none) :
    (completeFinished P config (w.host.ledger P) q).Leads w (fun _ => Settled P Configs)
      (fun _ => Valid P Configs) (Valid P Configs) := by
  unfold completeFinished
  cases hlast : (w.host.ledger P).history.getLast? with
  | none => exact (Prog.leads_fail _).mpr hs.valid
  | some last =>
    refine Prog.leads_ite (fun hmatch => ?_) (fun _ => (Prog.leads_fail _).mpr hs.valid)
    refine observes_refuse.then (fun _ w₁ hc₁ hnonce => ?_) (fun _ _ hc => hs.valid.calm hc)
      (fun _ hc => hs.valid.calm hc)
    have hs₁ := hs.calm hc₁
    refine Prog.leads_bind.mpr (Prog.Leads.mono (renew_leads hl hs₁
      (.inr (.inr ⟨q, by rw [hc₁.host_journal, hq], rfl⟩)))
      (fun _ w₂ h₂ => ?_) (fun _ _ h => h) (fun _ h => h))
    have hs₂ := h₂.settled hs₁
    refine observes_getJournal.then (fun journal w₃ hc₃ hjournal => ?_)
      (fun _ _ hc => hs₂.valid.calm hc) (fun _ hc => hs₂.valid.calm hc)
    have hs₃ := hs₂.calm hc₃
    have hjournal : journal = w₃.host.journal := hjournal.trans (hc₃.journal ▸ hs₃.synced)
    subst hjournal
    refine Prog.Leads.mono (settle_leads hs₃.valid ?_ ⟨?_, last, ?_, ?_, rfl⟩)
      (fun _ _ h => h.1) (fun _ _ h => h.1) (fun _ h => h)
    · rw [← hs₃.synced, hc₃.journal, h₂.pending, hs₁.synced, hc₁.host_journal, hq]
    · rw [hc₃.host_ledger P, h₂.ledger, hc₁.host_ledger P, hnone]
    · rw [hc₃.host_ledger P, h₂.ledger, hc₁.host_ledger P, hlast]
    · show (⟨last.nonce, last.version, last.sequence⟩ : ConsumedRequest) = q.receipt
      rw [hnonce, hmatch.1, hmatch.2]
      rfl

/-- What reading the mailbox leads to: an accepted acknowledgement is the last
one read. -/
theorem healthStatusForPending_leads {p : PendingUpdate} (hv : Valid P Configs w) :
    (healthStatusForPending p).Leads w
      (fun healthy w' => KeepsDocs P Configs w w' ∧
        (healthy = true → ∃ ack, lastAck w'.trace = some ack ∧ ack.accepts p = true))
      (fun _ => KeepsDocs P Configs w) (Valid P Configs) := by
  have unhealthy : ∀ w', KeepsDocs P Configs w w' →
      (pure false : Act Bool).Leads w'
        (fun healthy w' => KeepsDocs P Configs w w' ∧
          (healthy = true → ∃ ack, lastAck w'.trace = some ack ∧ ack.accepts p = true))
        (fun _ => KeepsDocs P Configs w) (Valid P Configs) := fun w' hk =>
    (Prog.leads_pure _).mpr ⟨hk, fun hf => absurd hf (by simp)⟩
  refine observes_lift.then (fun _ w₁ hc₁ _ => ?_) (fun _ _ hc => KeepsDocs.calm hv hc)
    (fun _ hc => hv.calm hc)
  -- What is read is the mailbox of that moment.
  have hread : (step *> inspect).Leads w₁ (fun h w' => Calm w₁ w' ∧ h = w'.host)
      (fun _ => Calm w₁) (Calm w₁) := by
    show (step >>= fun _ => inspect).Leads w₁ _ _ _
    refine observes_step.then (fun _ w₂ hc₂ _ => ?_) (fun _ _ hc => hc) (fun _ hc => hc)
    refine observes_step.then (fun _ w₃ hc₃ _ => ?_) (fun _ _ hc => hc₂.trans hc)
      (fun _ hc => hc₂.trans hc)
    exact Prog.leads_bind.mpr (Prog.leads_get.mpr ((Prog.leads_pure _).mpr
      ⟨hc₂.trans hc₃, rfl⟩))
  refine Prog.leads_bind.mpr (Prog.leads_attempt.mpr (Prog.Leads.mono hread
    (fun h w₂ h₂ => ?_) (fun _ w₂ hc₂ => unhealthy w₂ (KeepsDocs.calm hv (hc₁.trans hc₂)))
    (fun _ hc => hv.calm (hc₁.trans hc))))
  obtain ⟨hc₂, rfl⟩ := h₂
  have hc₂' := hc₁.trans hc₂
  dsimp only
  cases hack : w₂.host.shared.health with
  | none => exact unhealthy w₂ (KeepsDocs.calm hv hc₂')
  | some ack =>
    have hv₃ : Valid P Configs (w₂.happen (.sawHealth ack)) :=
      (hv.calm hc₂').happen (.sawHealth hack)
    have hk₃ : KeepsDocs P Configs w (w₂.happen (.sawHealth ack)) :=
      ⟨hv₃, hc₂'.sameDocs.trans ⟨rfl, rfl, fun _ => rfl, rfl⟩⟩
    refine Prog.leads_bind.mpr (Prog.leads_modify.mpr ?_)
    refine Prog.leads_ite (fun haccepts => ?_) (fun _ => unhealthy _ hk₃)
    refine observes_unixNow.then (fun now w₄ hc₄ _ => ?_)
      (fun _ _ hc => (KeepsDocs.calm hv₃ hc).trans hk₃.2) (fun _ hc => hv₃.calm hc)
    exact (Prog.leads_pure _).mpr ⟨(KeepsDocs.calm hv₃ hc₄).trans hk₃.2, fun _ =>
      ⟨ack, hc₄.lastAck, haccepts⟩⟩

/-- **`recover_or_ack_with` when both documents name a transaction**: an
acknowledgement promotes it, an expired window rolls it back. -/
theorem superviseHealth_leads {q : Pending} {p : PendingUpdate} (hl : Loaded P Configs config)
    (hs : Settled P Configs w) (hq : w.host.journal.pending = some q)
    (hp : (w.host.ledger P).pending = some p) :
    (superviseHealth P config q p).Leads w (fun _ => Settled P Configs)
      (fun _ => Valid P Configs) (Valid P Configs) := by
  refine observes_refuse.then (fun _ w₁ hc₁ hmatch => ?_) (fun _ _ hc => hs.valid.calm hc)
    (fun _ hc => hs.valid.calm hc)
  have hs₁ := hs.calm hc₁
  have hreceipt : p.receipt = q.receipt := by
    show (⟨p.nonce, p.version, p.sequence⟩ : ConsumedRequest) = q.receipt
    rw [hmatch.1, hmatch.2.1, hmatch.2.2]
    rfl
  refine Prog.leads_bind.mpr (Prog.Leads.mono (renew_leads hl hs₁
    (.inr (.inr ⟨q, by rw [hc₁.host_journal, hq], rfl⟩)))
    (fun _ w₂ h₂ => ?_) (fun _ _ h => h) (fun _ h => h))
  have hs₂ := h₂.settled hs₁
  have hq₂ : w₂.host.journal.pending = some q := by
    rw [← hs₂.synced, h₂.pending, hs₁.synced, hc₁.host_journal, hq]
  have hp₂ : (w₂.host.ledger P).pending = some p := by
    rw [h₂.ledger, hc₁.host_ledger P, hp]
  -- Without an acknowledgement the window decides.
  have expire : ∀ w₃, KeepsDocs P Configs w₂ w₃ →
      (do
        let now ← clockNow
        if now ≥ p.deadline then rollbackWith P config "healthy_heartbeat_timeout"
        else pure ()).Leads w₃ (fun _ => Settled P Configs) (fun _ => Valid P Configs)
        (Valid P Configs) := by
    intro w₃ hk
    refine observes_clockNow.then (fun now w₄ hc₄ _ => ?_) (fun _ _ hc => hk.1.calm hc)
      (fun _ hc => hk.1.calm hc)
    have hs₄ := (hs₂.sameDocs hk.2 hk.1).calm hc₄
    have hd₄ := hk.2.trans hc₄.sameDocs
    refine Prog.leads_ite (fun _ => ?_) (fun _ => (Prog.leads_pure _).mpr hs₄)
    refine Prog.Leads.mono (rollbackWith_leads hl ⟨hs₄.valid,
      by rw [hs₄.synced], by rw [hs₄.synced], q, q.startedAt, ?_, ?_, p, ?_, hreceipt⟩)
      (fun _ _ h => h.1) (fun _ _ h => h.1) (fun _ h => h)
    · rw [hd₄.onDisk, hq₂]
    · rw [hs₄.synced, hd₄.onDisk, hq₂]
    · rw [hd₄.ledger, hp₂]
  refine Prog.leads_bind.mpr (Prog.leads_attempt.mpr (Prog.Leads.mono
    (healthStatusForPending_leads (p := p) hs₂.valid) (fun healthy w₃ h₃ => ?_)
    (fun _ w₃ hk => expire w₃ hk) (fun _ h => h)))
  obtain ⟨hk, hack⟩ := h₃
  cases healthy with
  | false => exact expire w₃ hk
  | true =>
    have hs₃ := hs₂.sameDocs hk.2 hk.1
    refine Prog.leads_bind.mpr (Prog.Leads.mono (finishUpdate_leads true hs₃.valid
      hl.sound ?_) (fun _ w₄ h₄ => ?_) (fun _ w₄ hc₄ => hs₃.valid.calm hc₄) (fun _ h => h))
    · intro w' p' now l hc hcloses _ hraised _
      have hp' := hcloses.pending
      rw [hc.host_ledger P, hk.2.ledger, hp₂] at hp'
      cases hp'
      refine .promote hl.inForce ⟨hcloses, rfl, ⟨q, ?_, hreceipt.symm⟩, ?_, (hraised rfl).1,
        (hraised rfl).2⟩
      · rw [hc.host_journal, hk.2.onDisk, hq₂]
      · rw [hc.lastAck]
        exact hack rfl
    · have hq₄ : w₄.host.journal.pending = some q := by rw [h₄.onDisk, hk.2.onDisk, hq₂]
      have hj₄ : w₄.journal = w₄.host.journal := by
        rw [h₄.journal, h₄.onDisk, hs₃.synced]
      have hfinished : (w₄.host.ledger P).Finished q.receipt "healthy" := by
        obtain ⟨p', hp', -, hfin⟩ := h₄.finished
        rw [hk.2.ledger, hp₂] at hp'
        cases hp'
        exact hreceipt ▸ hfin
      refine observes_getJournal.then (fun journal w₅ hc₅ hjournal => ?_)
        (fun _ _ hc => h₄.valid.calm hc) (fun _ hc => h₄.valid.calm hc)
      have hjournal : journal = w₅.host.journal := by
        rw [hjournal, hc₅.host_journal, hj₄]
      subst hjournal
      refine Prog.Leads.mono (settle_leads (h₄.valid.calm hc₅) ?_ ?_) (fun _ _ h => h.1)
        (fun _ _ h => h.1) (fun _ h => h)
      · rw [hc₅.host_journal, hq₄]
      · rw [hc₅.host_ledger P]
        exact hfinished

/-- **`recover_or_ack_with` takes permitted steps**, and leaves the variable
as on disk. -/
theorem recoverOrAckWith_leads (hl : Loaded P Configs config) (hs : Settled P Configs w) :
    (recoverOrAckWith P config).Leads w (fun _ => Settled P Configs)
      (fun _ => Valid P Configs) (Valid P Configs) := by
  refine (readLedger_observes P).then (fun ledger w₁ hc₁ hledger => ?_)
    (fun _ _ hc => hs.valid.calm hc) (fun _ hc => hs.valid.calm hc)
  refine observes_getJournal.then (fun journal w₂ hc₂ hjournal => ?_)
    (fun _ _ hc => hs.valid.calm (hc₁.trans hc)) (fun _ hc => hs.valid.calm (hc₁.trans hc))
  have hc := hc₁.trans hc₂
  have hs₂ := hs.calm hc
  have hledger : ledger = w₂.host.ledger P := by rw [hledger, hc.host_ledger P]
  have hjournal : journal = w₂.host.journal := by
    rw [hjournal, hc₁.journal, hs.synced, hc.host_journal]
  subst hledger hjournal
  cases hq : w₂.host.journal.pending with
  | none =>
    cases hp : (w₂.host.ledger P).pending with
    | none => exact (Prog.leads_pure _).mpr hs₂
    | some p =>
      -- The transaction was interrupted before the journal named it.
      refine Prog.leads_bind.mpr (Prog.Leads.mono (renew_leads hl hs₂
        (.inr (.inl ⟨hq, p, hp, rfl⟩))) (fun _ w₃ h₃ => ?_) (fun _ _ h => h) (fun _ h => h))
      have hs₃ := h₃.settled hs₂
      refine Prog.Leads.mono (finishUpdate_leads false hs₃.valid hl.sound ?_)
        (fun _ w₄ h₄ => ⟨h₄.valid, ?_⟩) (fun _ _ hc => hs₃.valid.calm hc) (fun _ h => h)
      · intro w' p' now l hc' hcloses _ _ hsame
        refine .abandon hl.inForce ⟨hcloses, rfl, hsame rfl, .inl ⟨?_, ?_⟩⟩
        · rw [hc'.host_journal, ← hs₃.synced, h₃.pending, hs₂.synced, hq]
        · show String.ofList ("interrupted_before_install".toList.take 1024) = _
          decide
      · rw [h₄.journal, h₄.onDisk, hs₃.synced]
  | some q =>
    cases hp : (w₂.host.ledger P).pending with
    | none => exact completeFinished_leads hl hs₂ hq hp
    | some p => exact superviseHealth_leads hl hs₂ hq hp

/-! ## The loop -/

/-- One round of the loop. -/
theorem supervisePass_leads (hl : Loaded P Configs config) (hv : Valid P Configs w)
    (examined : List String) :
    (supervisePass P config examined).Leads w (fun _ => Valid P Configs)
      (fun _ => Valid P Configs) (Valid P Configs) := by
  have hv₁ : Valid P Configs (w.happen .passStarted) := hv.happen .passStarted
  refine Prog.leads_bind.mpr (Prog.leads_modify.mpr ?_)
  refine (readJournal_observes P).then (fun journal w₂ hc₂ hjournal => ?_)
    (fun _ _ hc => hv₁.calm hc) (fun _ hc => hv₁.calm hc)
  refine Prog.leads_bind.mpr (Prog.leads_modify.mpr ?_)
  have hs₂ : Settled P Configs (w₂.holding journal) := by
    refine ⟨(hv₁.calm hc₂).holding _, ?_⟩
    rw [World.holding_journal, World.holding_host, hjournal, hc₂.host_journal]
  refine Prog.leads_bind.mpr (Prog.Leads.mono (recoverOrAckWith_leads hl hs₂)
    (fun _ w₃ hs₃ => ?_) (fun _ _ h => h) (fun _ h => h))
  refine Prog.leads_bind.mpr (Prog.Leads.mono (pruneCache_leads hs₃.valid (by rw [hs₃.synced]))
    (fun _ w₄ hk₄ => ?_) (fun _ _ hk => hk.1) (fun _ h => h))
  have hs₄ := hs₃.sameDocs hk₄.2 hk₄.1
  refine observes_getJournal.then (fun journal' w₅ hc₅ hjournal' => ?_)
    (fun _ _ hc => hs₄.valid.calm hc) (fun _ hc => hs₄.valid.calm hc)
  have hs₅ := hs₄.calm hc₅
  refine Prog.leads_ite (fun _ => (Prog.leads_pure _).mpr hs₅.valid) (fun hnone => ?_)
  rw [not_not, hjournal', ← hc₅.journal] at hnone
  refine incomingRequests_observes.then (fun entries w₆ hc₆ _ => ?_)
    (fun _ _ hc => hs₅.valid.calm hc) (fun _ hc => hs₅.valid.calm hc)
  exact acceptAll_leads hl entries examined w₆
    ((Idle.of_eq hs₅.valid hs₅.synced hnone).calm hc₆)

/-- Any number of rounds. -/
theorem supervise_leads (hl : Loaded P Configs config) (passes : Nat) :
    ∀ (examined : List String) (w : World), Valid P Configs w →
      (supervise P config passes examined).Leads w (fun _ => Valid P Configs)
        (fun _ => Valid P Configs) (Valid P Configs) := by
  induction passes with
  | zero => exact fun _ w hv => (Prog.leads_pure _).mpr hv
  | succ passes ih =>
    intro examined w hv
    exact Prog.leads_bind.mpr (Prog.Leads.mono (supervisePass_leads hl hv examined)
      (fun examined' w' hv' => ih examined' w' hv') (fun _ _ h => h) (fun _ h => h))

/-! ## Seeding -/

/-- **`seed` under its cleanup guard.** When it fails, the journal on disk does
not name the directory. -/
theorem activateSeed_leads {directory : String} (hs : Settled P Configs w)
    (hnone : w.journal.pending = none) (hnames : w.host.journal.names directory = false) :
    (activateSeed P config directory).Leads w (fun _ => Settled P Configs)
      (fun _ w' => Valid P Configs w' ∧ w'.host.journal.names directory = false)
      (Valid P Configs) := by
  have before : ∀ w', Calm w w' →
      Valid P Configs w' ∧ w'.host.journal.names directory = false := fun w' hc =>
    ⟨hs.valid.calm hc, by rw [hc.host_journal, hnames]⟩
  refine (verifyFiles_observes P config directory).then (fun m w₁ hc₁ hm => ?_)
    (fun _ _ hc => before _ hc) (fun _ hc => hs.valid.calm hc)
  obtain ⟨hverified, -, -, -, hidle⟩ := hm
  refine installedAgentVersion_observes.then (fun version w₂ hc₂ hversion => ?_)
    (fun _ _ hc => before _ (hc₁.trans hc)) (fun _ hc => hs.valid.calm (hc₁.trans hc))
  have hc₂' := hc₁.trans hc₂
  refine Prog.leads_ite (fun _ => ?_) (fun hsame => ?_)
  · -- The directory is removed here, and once more by the guard.
    have hb₂ := before w₂ hc₂'
    refine Prog.leads_bind.mpr (Prog.leads_bind.mpr (Prog.leads_attempt.mpr (Prog.Leads.mono
      (removeDir_leads hb₂.1 hb₂.2) (fun _ w₃ hk => ?_) (fun _ w₃ hk => ?_) (fun _ h => h))))
    · exact (Prog.leads_pure _).mpr ((Prog.leads_fail _).mpr
        ⟨hk.1, by rw [hk.2.onDisk]; exact hb₂.2⟩)
    · exact (Prog.leads_pure _).mpr ((Prog.leads_fail _).mpr
        ⟨hk.1, by rw [hk.2.onDisk]; exact hb₂.2⟩)
  · refine verifySignatureNative_observes.then (fun _ w₃ hc₃ _ => ?_)
      (fun _ _ hc => before _ (hc₂'.trans hc)) (fun _ hc => hs.valid.calm (hc₂'.trans hc))
    have hc₃' := hc₂'.trans hc₃
    refine (readLedger_observes P).then (fun ledger w₄ hc₄ hledger => ?_)
      (fun _ _ hc => before _ (hc₃'.trans hc)) (fun _ hc => hs.valid.calm (hc₃'.trans hc))
    have hc₄' := hc₃'.trans hc₄
    have hledger : ledger = w.host.ledger P := by rw [hledger, hc₃'.host_ledger P]
    subst hledger
    refine observes_lift.then (fun raised w₅ hc₅ hraised => ?_)
      (fun _ _ hc => before _ (hc₄'.trans hc)) (fun _ hc => hs.valid.calm (hc₄'.trans hc))
    have hc₅' := hc₄'.trans hc₅
    obtain ⟨hle, hcovered, hhistory, hpending⟩ := seedFloor_eq_ok hraised
    refine Prog.leads_bind.mpr (perform_leads (fun w₆ hc₆ => ?_)
      (fun _ _ hc => before _ (hc₅'.trans hc)) (fun _ hc => hs.valid.calm (hc₅'.trans hc)))
    have hc₆' := hc₅'.trans hc₆
    have hrule : Raises P w₆.host m raised := by
      have hl := hc₆'.host_ledger P
      exact ⟨by rw [hl, hidle], by rw [hpending, hidle], by rw [hl, hhistory], by rw [hl]; exact hle,
        hcovered⟩
    have hv₇ := (hs.valid.calm hc₆').happen (.raise hrule)
    refine observes_getJournal.then (fun journal w₈ hc₈ hjournal => ?_)
      (fun _ w' hc => ⟨hv₇.calm hc, ?_⟩) (fun _ hc => hv₇.calm hc)
    · have hjournal : journal = w.host.journal :=
        hjournal.trans (hc₆'.journal.trans hs.synced)
      subst hjournal
      have hdisk₈ : w₈.host.journal = w.host.journal :=
        hc₈.host_journal.trans hc₆'.host_journal
      have hv₉ := (hv₇.calm hc₈).holding
        ⟨some ⟨m, directory⟩, w.host.journal.pending, w.host.journal.consumed⟩
      refine Prog.leads_bind.mpr (Prog.leads_modify.mpr ?_)
      refine writeJournal_leads hv₉ (fun w₁₀ hc₁₀ => ?_) (fun _ w₁₀ hc₁₀ => ⟨hv₉.calm hc₁₀, ?_⟩)
      · have hdisk : w₁₀.host.journal = w.host.journal := hc₁₀.host_journal.trans hdisk₈
        have hledger : w₁₀.host.ledger P = raised :=
          (hc₁₀.host_ledger P).trans (hc₈.host_ledger P)
        have hactivates : Activates P w₁₀.host ⟨m, directory⟩ := by
          refine ⟨?_, ?_, hverified.stores.congr ?_, ?_, ?_⟩
          · rw [hdisk, ← hs.synced, hnone]
          · rw [hledger, hpending, hidle]
          · exact (hc₁₀.host_cache _).trans ((hc₈.host_cache _).trans (hc₆'.host_cache _))
          · show m.version = w₁₀.host.installed.version
            rw [hc₁₀.installed]
            show m.version = w₈.host.installed.version
            rw [hc₈.installed]
            show m.version = w₆.host.installed.version
            rw [not_not.mp hsame, hversion, hc₁.installed, hc₆'.installed]
          · rw [hledger]
            exact hcovered
        have hpermit := @Permitted.activate P Configs w₁₀.trace _ _ hactivates
        rw [hdisk] at hpermit
        exact ⟨(hv₉.calm hc₁₀).happen hpermit, hc₁₀.journal⟩
      · rw [hc₁₀.host_journal]
        show w₈.host.journal.names directory = false
        rw [hdisk₈, hnames]
    · rw [hc.host_journal]
      show w₆.host.journal.names directory = false
      rw [hc₆'.host_journal, hnames]

/-- **`seed` takes permitted steps.** -/
theorem seed_leads {manifest artifact : Option Bytes} (hl : Loaded P Configs config)
    (hv : Valid P Configs w) :
    (seed P config manifest artifact).Leads w (fun _ => Valid P Configs)
      (fun _ => Valid P Configs) (Valid P Configs) := by
  refine observes_step.then (fun _ w₁ hc₁ _ => ?_) (fun _ _ hc => hv.calm hc)
    (fun _ hc => hv.calm hc)
  refine (readJournal_observes P).then (fun journal w₂ hc₂ hjournal => ?_)
    (fun _ _ hc => hv.calm (hc₁.trans hc)) (fun _ hc => hv.calm (hc₁.trans hc))
  refine Prog.leads_bind.mpr (Prog.leads_modify.mpr ?_)
  have hs₂ : Settled P Configs (w₂.holding journal) := by
    refine ⟨(hv.calm (hc₁.trans hc₂)).holding _, ?_⟩
    rw [World.holding_journal, World.holding_host, hjournal, hc₂.host_journal]
  refine observes_refuse.then (fun _ w₃ hc₃ hnone => ?_) (fun _ _ hc => hs₂.valid.calm hc)
    (fun _ hc => hs₂.valid.calm hc)
  have hs₃ := hs₂.calm hc₃
  have hnone₃ : w₃.journal.pending = none := by
    rw [hc₃.journal]
    exact hnone
  -- From the copy on.
  have rest : ∀ w₄, Settled P Configs w₄ → w₄.journal.pending = none →
      (do
        let t ← turn
        let directory := "seed-" ++ toString t.random
        copyRequest (fun _ => manifest) (fun _ => artifact) directory
          config.updates.maxDownloadBytes
        guarded (removeDir directory) (activateSeed P config directory)
        pruneCache).Leads w₄ (fun _ => Valid P Configs) (fun _ => Valid P Configs)
        (Valid P Configs) := by
    intro w₄ hs₄ hnone₄
    refine observes_turn.then (fun t w₅ hc₅ _ => ?_) (fun _ _ hc => hs₄.valid.calm hc)
      (fun _ hc => hs₄.valid.calm hc)
    have hs₅ := hs₄.calm hc₅
    dsimp only
    refine Prog.leads_bind.mpr (Prog.Leads.mono (copyRequest_leads hs₅.valid)
      (fun _ w₆ h₆ => ?_) (fun _ _ hk => hk.1) (fun _ h => h))
    have hs₆ := hs₅.sameDocs h₆.1.2 h₆.1.1
    have hnone₆ : w₆.journal.pending = none := by
      rw [h₆.1.2.journal, hc₅.journal, hnone₄]
    refine Prog.leads_bind.mpr (Prog.leads_guarded (Prog.Leads.mono
      (activateSeed_leads hs₆ hnone₆ h₆.2) (fun _ w₇ hs₇ => ?_) (fun _ w₇ h₇ => ?_)
      (fun _ h => h)))
    · exact Prog.Leads.mono (pruneCache_leads hs₇.valid (by rw [hs₇.synced]))
        (fun _ _ hk => hk.1) (fun _ _ hk => hk.1) (fun _ h => h)
    · exact Prog.Leads.mono (removeDir_leads h₇.1 h₇.2) (fun _ _ hk => hk.1)
        (fun _ _ hk => hk.1) (fun _ h => h)
  cases hactive : journal.active with
  | none => exact rest w₃ hs₃ hnone₃
  | some active =>
    have hdisk₃ : w₃.host.journal = journal := by
      rw [← hs₃.synced, hc₃.journal]
    refine Prog.leads_ite (fun _ => ?_) (fun _ => rest w₃ hs₃ hnone₃)
    refine Prog.leads_bind.mpr (Prog.Leads.mono (renew_leads hl hs₃
      (.inl ⟨by rw [hdisk₃, hnone], active, by rw [hdisk₃, hactive], rfl⟩))
      (fun _ w₄ h₄ => rest w₄ (h₄.settled hs₃) (h₄.pending.trans hnone₃)) (fun _ _ h => h)
      (fun _ h => h))

/-! ## Processes -/

/-- **One process takes permitted steps.** -/
theorem program_leads {command : Command} (hin : Configs command.config)
    (hv : Valid P (Loaded P Configs) w) :
    (command.program P).Leads w (fun _ => Valid P (Loaded P Configs))
      (fun _ => Valid P (Loaded P Configs)) (Valid P (Loaded P Configs)) := by
  refine observes_lift.then (fun _ w₁ hc₁ hsound => ?_) (fun _ _ hc => hv.calm hc)
    (fun _ hc => hv.calm hc)
  have hl : Loaded P (Loaded P Configs) command.config := ⟨⟨hin, hsound⟩, hsound⟩
  have hv₁ := hv.calm hc₁
  cases command with
  | seed config manifest artifact => exact seed_leads hl hv₁
  | supervise config passes =>
    refine observes_step.then (fun _ w₂ hc₂ _ => ?_) (fun _ _ hc => hv₁.calm hc)
      (fun _ hc => hv₁.calm hc)
    exact supervise_leads hl passes [] w₂ (hv₁.calm hc₂)

/-- **Every sequence of processes is a history of the transition system**, for
all scripts: all interleavings with the endpoint, all failures, and a crash
after any effect. -/
theorem supervised_runAll (processes : List (Command × List Turn))
    (hin : ∀ process ∈ processes, Configs process.1.config) :
    ∀ {past : Past Host Event} {h : Host}, Supervised P (Loaded P Configs) past h →
      Supervised P (Loaded P Configs) (runAll P processes past h).1
        (runAll P processes past h).2 := by
  induction processes with
  | nil => exact fun hs => hs
  | cons process rest ih =>
    intro past h hs
    refine ih (fun p hp => hin p (List.mem_cons_of_mem _ hp)) ?_
    exact Prog.Leads.final (program_leads (hin process List.mem_cons_self)
      (w := ⟨h, Journal.empty, process.2, past⟩) hs)

end Lariska
