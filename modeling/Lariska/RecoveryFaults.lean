import Lariska.TransactionAgreement
import Lariska.SupervisorInvariants

/-!
# How a recovery can fail

A recovery refuses to go on when the documents contradict each other, and
only an administrator can repair that. Since the documents agree in every
durable state, it never does: its errors are those of the files, the clock,
the installer and the checks of the package it rolls back to. One refusal is
left, that of a full receipt history, for a transaction whose receipt has
lapsed.
-/

namespace Lariska

open Prog

/-! ## The refusals -/

/-- The errors that say the documents contradict each other. -/
def disagreements : List String := [
  "native update journal disagrees with protected ledger",
  "protected completed transaction nonce is missing or disagrees with the native journal; administrator repair is required",
  "protected transaction identities disagree",
  "consumed native request nonce changed its release identity"]

/-- The error of a receipt history without room. -/
def historyIsFull : String :=
  "native consumed request history is full; administrator repair is required before accepting another update"

/-- An error that is none of these. -/
def Fault.Benign : Fault → Prop
  | .text message => message ∉ historyIsFull :: disagreements
  | _ => True

instance (fault : Fault) : Decidable fault.Benign :=
  match fault with
  | .text message => inferInstanceAs (Decidable (message ∉ historyIsFull :: disagreements))
  | .detailed _ _ => .isTrue trivial
  | .os _ => .isTrue trivial

theorem benign_os (detail : String) : (Fault.os detail).Benign := trivial

/-- How the errors that are not benign begin. -/
def openings : List (List Char) := [
  ['n', 'a', 't', 'i', 'v', 'e', ' ', 'c'],
  ['n', 'a', 't', 'i', 'v', 'e', ' ', 'u'],
  ['p', 'r', 'o', 't', 'e', 'c', 't', 'e'],
  ['c', 'o', 'n', 's', 'u', 'm', 'e', 'd']]

/-- An error that begins in another way is benign. -/
theorem benign_text {message : List Char} (h : message.take 8 ∉ openings) :
    (Fault.text (String.ofList message)).Benign := by
  have hne : ∀ {l : List Char}, l.take 8 ∈ openings →
      String.ofList message ≠ String.ofList l := by
    intro l hl he
    rw [String.ofList_injective he] at h
    exact h hl
  intro hmem
  simp only [historyIsFull, disagreements, List.mem_cons, List.not_mem_nil, or_false] at hmem
  rcases hmem with hm | hm | hm | hm | hm
  all_goals exact hne (by decide) hm

theorem benign_detailed (message detail : String) : (Fault.detailed message detail).Benign :=
  trivial

/-- The error of a pure check is benign. -/
def Pure (x : Except Fault α) : Prop := ∀ fault, x = .error fault → fault.Benign

section Checks

variable {P : Platform} {config : Config}

theorem pure_ok {α : Type} (a : α) : Pure (.ok a : Except Fault α) := fun _ h => by cases h

theorem pure_error {α : Type} {fault : Fault} (h : fault.Benign) :
    Pure (.error fault : Except Fault α) := fun _ he => by cases he; exact h

theorem pure_require {c : Prop} [Decidable c] {fault : Fault} (h : fault.Benign) :
    Pure (require c fault) := by
  intro fault' he
  unfold require at he
  split at he
  · cases he
  · cases he
    exact h

theorem Pure.bind {α β : Type} {x : Except Fault α} {f : α → Except Fault β} (hx : Pure x)
    (hf : ∀ a, Pure (f a)) : Pure (x >>= f) := by
  intro fault he
  cases x with
  | ok a => exact hf a fault he
  | error e => exact hx fault (by cases he; rfl)

theorem Pure.discard {α : Type} {x : Except Fault α} (hx : Pure x) :
    Pure (Functor.discard x) := by
  intro fault he
  cases x with
  | ok a => cases he
  | error e => exact hx fault (by cases he; rfl)

theorem pure_parseVersion (version : String) : Pure (parseVersion P version) := by
  unfold parseVersion
  split
  · exact pure_error (benign_text (by decide))
  · split
    · exact pure_ok _
    · exact pure_error (benign_text (by decide))

theorem pure_decodeHex (n : Nat) (value : String) : Pure (decodeHex n value) := by
  unfold decodeHex
  split
  · exact pure_error (benign_detailed _ _)
  · exact pure_ok _

theorem pure_validateKeys (keys : List TrustedKey) :
    ∀ ids, Pure (UpdateConfig.validateKeys P ids keys) := by
  induction keys with
  | nil => exact fun _ => pure_ok _
  | cons key keys ih =>
    intro ids
    refine (pure_require (benign_text (by decide))).bind fun _ => (pure_decodeHex _ _).bind fun bytes => ?_
    split
    · exact ih _
    · exact pure_error (benign_detailed _ _)

theorem pure_whenSome {α : Type} {o : Option α} {check : α → Except Fault Unit}
    (h : ∀ a, Pure (check a)) : Pure (whenSome o check) := by
  cases o with
  | none => exact pure_ok _
  | some a => exact h a

/-- What the validation of a policy can complain about. -/
theorem pure_validate (updates : UpdateConfig) : Pure (updates.validate P) := by
  refine (pure_require (benign_detailed _ _)).bind fun _ => ?_
  refine (pure_require (benign_text (by decide))).bind fun _ => ?_
  refine (pure_require (benign_text (by decide))).bind fun _ => ?_
  refine (pure_require (benign_text (by decide))).bind fun _ => ?_
  refine (pure_validateKeys _ _).bind fun _ => ?_
  refine (pure_whenSome fun v => (pure_parseVersion v).discard).bind fun _ => ?_
  refine (pure_whenSome fun path => pure_require (benign_text (by decide))).bind fun _ => ?_
  refine (pure_whenSome fun pin => pure_require (benign_text (by decide))).bind fun _ => ?_
  refine (pure_whenSome fun team => pure_require (benign_text (by decide))).bind fun _ => ?_
  refine (pure_whenSome fun pin => (pure_decodeHex _ _).discard).bind fun _ => ?_
  exact pure_require (benign_text (by decide))

/-- What the shape of a manifest can be refused for. -/
theorem pure_verifyShape (signed : SignedManifest) : Pure (verifyShape P config signed) := by
  refine (pure_validate _).bind fun _ => ?_
  refine (pure_require (benign_text (by decide))).bind fun _ => ?_
  refine (pure_parseVersion _).discard.bind fun _ => ?_
  refine (pure_require (benign_detailed _ _)).bind fun _ => ?_
  refine (pure_require (benign_text (by decide))).bind fun _ => ?_
  refine (pure_require (benign_text (by decide))).bind fun _ => ?_
  refine (pure_require (benign_text (by decide))).bind fun _ => ?_
  exact pure_require (benign_text (by decide))

/-- What a signature can be refused for. -/
theorem pure_verifySignature (signed : SignedManifest) :
    Pure (verifySignature P config signed) := by
  unfold verifySignature
  split
  · exact pure_error (benign_text (by decide))
  · refine (pure_decodeHex _ _).bind fun _ => (pure_decodeHex _ _).bind fun _ => ?_
    split
    · exact pure_error (benign_os _)
    · exact pure_require (benign_text (by decide))

theorem pure_validateNonce (nonce : String) : Pure (validateNonce nonce) :=
  pure_require (benign_text (by decide))

theorem pure_checkLedger (l : UpdateLedger) : Pure (checkLedger P l) := by
  refine (pure_require (benign_text (by decide))).bind fun _ => ?_
  refine (pure_parseVersion _).discard.bind fun _ => ?_
  refine (pure_require (benign_text (by decide))).bind fun _ => ?_
  exact pure_require (benign_text (by decide))

theorem pure_raiseFloor (l : UpdateLedger) (version : String) (sequence : Nat) :
    Pure (raiseFloor P l version sequence) := by
  refine (pure_parseVersion _).bind fun _ => (pure_parseVersion _).bind fun _ => ?_
  exact pure_ok _

theorem pure_retained (floor : P.Version) (sequence : Nat) (receipts : List ConsumedRequest) :
    Pure (retained P floor sequence receipts) := by
  induction receipts with
  | nil => exact pure_ok _
  | cons r rest ih =>
    unfold retained
    split
    · exact pure_error (benign_os _)
    · exact ih.bind fun _ => pure_ok _

end Checks

/-! ## The errors of the programs -/

section Programs

variable (P : Platform) {config : Config} {w : World}

/-- An action all of whose errors are benign. -/
abbrev Safe {α : Type} (m : Act α) : Prop := m.Faults Fault.Benign

theorem safe_lift {α : Type} {x : Except Fault α} (h : Pure x) : Safe (lift x) :=
  faults_lift h

theorem safe_turn : Safe turn := turn_faults

theorem safe_step : Safe step := step_faults benign_os

theorem safe_inspect : Safe inspect :=
  safe_step.bind fun _ => faults_get.bind fun _ => faults_pure _

theorem safe_perform (e : Event) : Safe (perform e) := perform_faults benign_os e

theorem safe_getJournal : Safe getJournal := faults_get.bind fun _ => faults_pure _

theorem safe_unixNow : Safe unixNow := safe_step.bind fun _ => faults_pure _

theorem safe_clockNow : Safe clockNow :=
  safe_turn.bind fun t => by
    cases t.fate with
    | _ => exact faults_pure _

theorem safe_ignore (m : Act Unit) : Safe (ignore m) :=
  (faults_attempt m).bind fun _ => faults_pure _

theorem safe_readLedger : Safe (readLedger P) :=
  safe_inspect.bind fun h => by
    cases h.root.ledger with
    | none => exact faults_pure _
    | some l => exact (safe_lift (pure_checkLedger l)).bind fun _ => faults_pure _

theorem safe_writeJournal (why : JournalWrite) : Safe (writeJournal why) :=
  safe_getJournal.bind fun _ => (faults_ensure (benign_text (by decide))).bind fun _ => safe_perform _

theorem safe_verifyFilesForRecovery (directory : String) :
    Safe (verifyFilesForRecovery P config directory) := by
  have read : Safe (readManifest P directory) := by
    refine safe_inspect.bind fun _ => (faults_need (benign_os _)).bind fun _ => ?_
    exact (faults_ensure (benign_text (by decide))).bind fun _ => faults_need (benign_os _)
  have check : ∀ signed, Safe (verifyManifestInner P config signed true) := fun signed =>
    (safe_lift (pure_verifyShape signed)).bind fun _ => safe_lift (pure_verifySignature signed)
  have artifact : ∀ signed, Safe (verifyArtifact P config signed directory) := by
    intro signed
    refine (faults_ensure (benign_text (by decide))).bind fun _ => safe_inspect.bind fun _ => ?_
    refine (faults_need (benign_os _)).bind fun _ => ?_
    refine (faults_ensure (benign_text (by decide))).bind fun _ => safe_inspect.bind fun _ => ?_
    refine (faults_need (benign_os _)).bind fun _ => ?_
    refine (faults_ensure (benign_text (by decide))).bind fun _ => ?_
    exact faults_ensure (benign_text (by decide))
  exact read.bind fun signed => (check signed).bind fun _ => (artifact signed).bind fun _ =>
    faults_pure _

theorem safe_finishUpdate (nonce reason : String) (healthy : Bool) :
    Safe (finishUpdate P config nonce healthy reason) := by
  refine (safe_lift (pure_validateNonce nonce)).bind fun _ => ?_
  refine (safe_readLedger P).bind fun l => (faults_need (benign_text (by decide))).bind fun p => ?_
  refine (faults_ensure (benign_text (by decide))).bind fun _ => safe_unixNow.bind fun now => ?_
  refine Faults.bind (safe_lift ?_) fun _ => (safe_perform _).bind fun _ => safe_ignore _
  cases healthy with
  | true => exact pure_raiseFloor _ _ _
  | false => exact pure_ok _

theorem safe_install (site : Site) (m : ReleaseManifest) (directory : String) :
    Safe (install site config m directory) :=
  safe_turn.bind fun t => faults_get.bind fun _ => (faults_need (benign_os _)).bind fun _ => by
    cases t.fate with
    | failed effective => exact faults_modify.bind fun _ => faults_fail (benign_os _)
    | _ => exact faults_modify

theorem safe_restart : Safe restart :=
  safe_turn.bind fun t => faults_modify.bind fun _ => by
    cases t.fate with
    | failed _ => exact faults_fail (benign_os _)
    | _ => exact faults_pure _

theorem safe_pruneCache : Safe pruneCache := by
  have entries : ∀ (j : Journal) (names : List String), Safe (pruneEntries j names) := by
    intro j names
    induction names with
    | nil => exact faults_pure _
    | cons name names ih =>
      refine safe_step.bind fun _ => ?_
      exact faults_ite ((safe_perform _).bind fun _ => ih) ih
  exact safe_inspect.bind fun _ => safe_getJournal.bind fun j => entries j _

theorem safe_rollbackWith (reason : String) : Safe (rollbackWith P config reason) := by
  refine safe_getJournal.bind fun j => (faults_need (benign_text (by decide))).bind fun q => ?_
  refine (faults_need (benign_text (by decide))).bind fun previous => ?_
  refine (safe_verifyFilesForRecovery P _).bind fun m => ?_
  refine Faults.bind (safe_step.bind fun _ => faults_pure _) fun _ => ?_
  refine (safe_install _ _ _).bind fun _ => safe_restart.bind fun _ => ?_
  refine (safe_finishUpdate P _ _ _).bind fun _ => faults_modify.bind fun _ => ?_
  exact (safe_writeJournal _).bind fun _ => safe_pruneCache

theorem safe_healthStatus (p : PendingUpdate) : Safe (healthStatusForPending p) := by
  refine (safe_lift (pure_validateNonce _)).bind fun _ => (faults_attempt _).bind fun r => ?_
  cases r with
  | error _ => exact faults_pure _
  | ok h =>
    dsimp only
    cases h.shared.health with
    | none => exact faults_pure _
    | some ack =>
      refine faults_modify.bind fun _ => ?_
      exact faults_ite (safe_unixNow.bind fun _ => faults_pure _) (faults_pure _)

end Programs

/-! ## The recovery -/

section Recovery

variable {P : Platform} {config : Config} {w : World}

/-- A program that only reads, with benign errors, and what follows it. -/
theorem Observes.then_faults {α β : Type} {m : Act α} {f : α → Act β} {Q : α → Prop}
    {B : Fault → Prop} (h : Observes m w Q) (hs : Safe m) (hB : ∀ fault, fault.Benign → B fault)
    (hf : ∀ a w', Calm w w' → Q a →
      (f a).Leads w' (fun _ _ => True) (fun fault _ => B fault) (fun _ => True)) :
    (m >>= f).Leads w (fun _ _ => True) (fun fault _ => B fault) (fun _ => True) :=
  Prog.leads_bind.mpr (Prog.Leads.mono (Prog.Leads.with_faults h hs)
    (fun a w' ha => hf a w' ha.1 ha.2) (fun fault _ hE => hB fault hE.2) (fun _ _ => trivial))

/-- The errors of a safe program are among any that include the benign ones. -/
theorem safe_leads {α : Type} {m : Act α} {B : Fault → Prop} (h : Safe m)
    (hB : ∀ fault, fault.Benign → B fault) :
    m.Leads w (fun _ _ => True) (fun fault _ => B fault) (fun _ => True) :=
  Prog.Leads.mono (h w) (fun _ _ h => h) (fun fault _ hb => hB fault hb) (fun _ h => h)

/-- A recovery fails benignly, or for want of room for this receipt. -/
def Lacking (receipts : List ConsumedRequest) (receipt : ConsumedRequest) (fault : Fault) :
    Prop :=
  fault.Benign ∨ fault = .text historyIsFull ∧ receipt ∉ receipts

/-- **Recording a receipt that no other contradicts** fails for want of room,
if at all, and only when the receipt is not on record. -/
theorem rememberConsumedNonce_faults {receipt : ConsumedRequest} {accepting : Bool}
    (hunique : ∀ r ∈ w.journal.consumed, r.nonce = receipt.nonce → r = receipt) :
    (rememberConsumedNonce P config accepting receipt).Leads w (fun _ _ => True)
      (fun fault _ => Lacking w.journal.consumed receipt fault) (fun _ => True) := by
  refine observes_refuse.then_faults (faults_ensure (benign_text (by decide))) (fun _ => .inl)
    fun _ w₁ hc₁ _ => ?_
  refine observes_lift.then_faults (safe_lift ?_) (fun _ => .inl) fun _ w₂ hc₂ _ => ?_
  · refine Pure.discard ?_
    unfold parseReceiptVersion
    split
    · exact pure_ok _
    · exact pure_error (benign_detailed _ _)
  refine observes_getJournal.then_faults safe_getJournal (fun _ => .inl)
    fun journal w₃ hc₃ hjournal => ?_
  have hjournal : journal = w.journal := hjournal.trans (hc₁.trans hc₂).journal
  subst hjournal
  dsimp only
  cases hfind : w.journal.consumed.find? (fun r => r.nonce == receipt.nonce) with
  | some previous =>
    -- The receipt found is the one to record.
    have hnonce : previous.nonce = receipt.nonce := by simpa using List.find?_some hfind
    have hsame := hunique previous (List.mem_of_find?_eq_some hfind) hnonce
    exact Prog.leads_ensure.mpr ⟨fun _ => trivial, fun hne =>
      absurd ⟨congrArg _ hsame, congrArg _ hsame⟩ hne⟩
  | none =>
    have habsent : receipt ∉ w.journal.consumed := fun hmem => by
      have hne := List.find?_eq_none.mp hfind receipt hmem
      simp at hne
    have push : ∀ w', (do
        let journal ← getJournal
        refuse (journal.consumed.length < maxRequests)
          "native consumed request history is full; administrator repair is required before accepting another update"
        setJournal { journal with consumed := journal.consumed ++ [receipt] }
        writeJournal (.reserve config accepting receipt)).Leads w' (fun _ _ => True)
        (fun fault _ => Lacking w.journal.consumed receipt fault) (fun _ => True) := by
      intro w'
      refine observes_getJournal.then_faults safe_getJournal (fun _ => .inl) fun _ w₄ _ _ => ?_
      refine Prog.leads_bind.mpr (Prog.leads_ensure.mpr ⟨fun _ => ?_, fun _ => .inr ⟨rfl, habsent⟩⟩)
      exact safe_leads (faults_modify.bind fun _ => safe_writeJournal _) (fun _ => .inl)
    refine Prog.leads_ite (fun _ => ?_) (fun _ => push w₃)
    have prune : Safe (pruneReceipts P) := by
      refine (safe_readLedger P).bind fun l => ?_
      split
      · exact faults_fail (benign_os _)
      · exact safe_getJournal.bind fun _ => (safe_lift (pure_retained _ _ _)).bind fun _ =>
          faults_modify
    exact Prog.leads_bind.mpr (Prog.Leads.mono (prune w₃) (fun _ w₄ _ => push w₄)
      (fun _ _ hb => .inl hb) (fun _ _ => trivial))

/-- Once the receipt is on record, what is left fails benignly. -/
theorem recorded_faults {receipt : ConsumedRequest} {rest : Act Unit}
    (hunique : ∀ r ∈ w.journal.consumed, r.nonce = receipt.nonce → r = receipt)
    (hmem : receipt ∈ w.journal.consumed) (hrest : Safe rest) :
    (rememberConsumedNonce P config false receipt >>= fun _ => rest).Leads w (fun _ _ => True)
      (fun fault _ => fault.Benign) (fun _ => True) :=
  Prog.leads_bind.mpr (Prog.Leads.mono (rememberConsumedNonce_faults hunique)
    (fun _ w' _ => hrest w')
    (fun _ _ hl => hl.resolve_right fun ⟨_, habsent⟩ => habsent hmem) (fun _ _ => trivial))

/-- The error of a recovery that lacks room for a receipt that has lapsed. -/
def Host.LacksRoom (P : Platform) (h : Host) (fault : Fault) : Prop :=
  fault = .text historyIsFull ∧ ∃ p, (h.ledger P).pending = some p ∧
    h.journal.pending = none ∧ p.receipt ∉ h.journal.consumed

/-- **A recovery from documents that agree never finds them in
disagreement.** -/
theorem recoverOrAckWith_faults {Configs : Config → Prop} (ha : w.host.Agrees P Configs)
    (hd : w.host.Distinct) (hj : w.journal = w.host.journal) :
    (recoverOrAckWith P config).Leads w (fun _ _ => True)
      (fun fault _ => fault.Benign ∨ w.host.LacksRoom P fault) (fun _ => True) := by
  refine (readLedger_observes P).then_faults (safe_readLedger P) (fun _ => .inl)
    fun ledger w₁ hc₁ hledger => ?_
  refine observes_getJournal.then_faults safe_getJournal (fun _ => .inl)
    fun journal w₂ hc₂ hjournal => ?_
  have hj₂ : w₂.journal = w.host.journal := ((hc₁.trans hc₂).journal).trans hj
  have hjournal : journal = w.host.journal := hjournal.trans (hc₁.journal.trans hj)
  subst hledger hjournal
  have distinct : ∀ {r r' : ConsumedRequest}, r ∈ w.host.journal.consumed →
      r' ∈ w.host.journal.consumed → r.nonce = r'.nonce → r = r' := fun hr hr' hn =>
    List.inj_on_of_nodup_map hd hr hr' hn
  cases hq : w.host.journal.pending with
  | none =>
    cases hp : (w.host.ledger P).pending with
    | none => exact (Prog.leads_pure _).mpr trivial
    | some p =>
      refine Prog.leads_bind.mpr (Prog.Leads.mono (rememberConsumedNonce_faults ?_)
        (fun _ w₃ _ => safe_leads (safe_finishUpdate P _ _ _) fun _ => .inl)
        (fun fault _ hl => ?_) (fun _ _ => trivial))
      · rw [hj₂]
        exact (ha.unclaimed p hp hq).1
      · rw [hj₂] at hl
        exact hl.imp_right fun ⟨hfull, habsent⟩ => ⟨hfull, p, hp, hq, habsent⟩
  | some q =>
    have hmem : q.receipt ∈ w₂.journal.consumed := by
      rw [hj₂]
      exact ha.recorded q hq
    have hunique : ∀ {w' : World}, Calm w₂ w' → ∀ r ∈ w'.journal.consumed,
        r.nonce = q.receipt.nonce → r = q.receipt := by
      intro w' hc r hr hn
      rw [hc.journal, hj₂] at hr
      exact distinct hr (ha.recorded q hq) hn
    have settle : ∀ outcome, Safe (do
        let journal ← getJournal
        setJournal (journal.settled outcome q.release)
        writeJournal .settle
        pruneCache) := fun outcome =>
      safe_getJournal.bind fun _ => faults_modify.bind fun _ =>
        (safe_writeJournal _).bind fun _ => safe_pruneCache
    refine Prog.Leads.mono ?_ (fun _ _ h => h) (fun _ _ hb => Or.inl hb) (fun _ h => h)
    cases hp : (w.host.ledger P).pending with
    | none =>
      -- The ledger's last record is of the journal's transaction.
      obtain ⟨outcome, -, last, hlast, hreceipt, -⟩ := (ha.journaled q hq).resolve_left
        fun ⟨p, hp', _⟩ => absurd hp' (by rw [hp]; simp)
      have hnonce : last.nonce = q.nonce := congrArg ConsumedRequest.nonce hreceipt
      have hversion : last.version = q.release.manifest.version :=
        congrArg ConsumedRequest.version hreceipt
      have hsequence : last.sequence = q.release.manifest.sequence :=
        congrArg ConsumedRequest.sequence hreceipt
      show (completeFinished P config (w.host.ledger P) q).Leads w₂ _ _ _
      unfold completeFinished
      rw [hlast]
      refine Prog.leads_ite (fun _ => ?_) (fun hne => absurd ⟨hversion, hsequence⟩ hne)
      refine Prog.leads_bind.mpr (Prog.leads_ensure.mpr ⟨fun _ => ?_, fun hne =>
        absurd hnonce hne⟩)
      exact recorded_faults (hunique (Calm.refl w₂)) hmem (settle last.outcome)
    | some p =>
      obtain ⟨p', hp', hreceipt⟩ := (ha.journaled q hq).resolve_right
        fun ⟨_, hnone, _⟩ => absurd hp (by rw [hnone]; simp)
      cases hp.symm.trans hp'
      have hnonce : p.nonce = q.nonce := congrArg ConsumedRequest.nonce hreceipt
      have hversion : p.version = q.release.manifest.version :=
        congrArg ConsumedRequest.version hreceipt
      have hsequence : p.sequence = q.release.manifest.sequence :=
        congrArg ConsumedRequest.sequence hreceipt
      refine Prog.leads_bind.mpr (Prog.leads_ensure.mpr ⟨fun _ => ?_, fun hne =>
        absurd ⟨hnonce, hversion, hsequence⟩ hne⟩)
      refine recorded_faults (hunique (Calm.refl w₂)) hmem ?_
      have expire : Safe (do
          let now ← clockNow
          if now ≥ p.deadline then rollbackWith P config "healthy_heartbeat_timeout"
          else pure ()) :=
        safe_clockNow.bind fun _ => faults_ite (safe_rollbackWith P _) (faults_pure _)
      refine (faults_attempt _).bind fun r => ?_
      cases r with
      | error _ => exact expire
      | ok healthy =>
        cases healthy with
        | false => exact expire
        | true => exact (safe_finishUpdate P _ _ _).bind fun _ => settle "healthy"

end Recovery

/-! ## Every durable state -/

/-- A recovery from these documents, under any configuration and script,
never finds them in disagreement. -/
def Host.Recovers (P : Platform) (h : Host) : Prop :=
  ∀ config script past fault w',
    recoverOrAckWith P config ⟨h, h.journal, script, past⟩ = (.error fault, w') →
      fault.Benign ∨ h.LacksRoom P fault

/-- A forward installation happens while both documents name its nonce as
pending. -/
def Event.Joint (P : Platform) (h : Host) : Event → Prop
  | .installing ⟨.forward nonce, _, _, _, _⟩ =>
    (∃ p, (h.ledger P).pending = some p ∧ p.nonce = nonce) ∧
      ∃ q, h.journal.pending = some q ∧ q.nonce = nonce
  | _ => True

variable {P : Platform} {Configs : Config → Prop} {past : Past Host Event} {h : Host}

/-- **The documents agree in every durable state of a run**, a recovery from
any of them finds no disagreement, and a forward installation happens only
while both name its nonce. What the agreement leaves open is a transaction
only the ledger has, admitted by the override under the floor, whose receipt
a process without the override has dropped; only there can a recovery lack
room for a receipt. -/
theorem documents_agree (P : Platform) (r : Run) :
    (∀ h ∈ visited (r.past P) (r.host P), h.Agrees P (Loaded P r.Uses) ∧ h.Recovers P) ∧
      Throughout (fun _ h e => e.Joint P h) (r.past P) := by
  refine ⟨fun h hh => ?_, (r.supervised_uses P).throughout' ?_⟩
  · obtain ⟨past, hs⟩ := (r.supervised_uses P).of_visited hh
    have ha := agrees_of_supervised hs
    refine ⟨ha, fun config script past' fault w' herror => ?_⟩
    have hleads := @recoverOrAckWith_faults P config ⟨h, h.journal, script, past'⟩ _ ha
      (distinct_of_supervised hs) rfl
    exact hleads.error herror
  · rintro past h e _ - ⟨he, -⟩
    cases he with
    | @advance config m bytes nonce effective inForce vouched rule =>
      obtain ⟨p, hp, hreceipt⟩ := rule.awaited
      obtain ⟨q, hq, -, hnonce⟩ := rule.enlisted
      exact ⟨⟨p, hp, congrArg ConsumedRequest.nonce hreceipt⟩, q, hq, hnonce⟩
    | retreat effective inForce vouched rule => trivial
    | _ => trivial

section Lapse

open Sample

/-- A healthy emergency release is active while the floor is above it. A
process without the override drops the receipt of that release; a second
emergency release is committed and the supervisor killed before the journal
names it; a seeding without the override then renews the receipt of the
active release and drops that of the committed one. -/
def lapsing : Run := on [
  (seeding none current, quietly 40),
  (supervising (some older.version) 2,
    request nonce₁ older :: quietly 43 ++ after .ackHealth :: quietly 40),
  (supervising none 1, request nonce₂ newer :: quietly 24),
  (supervising (some patched.version) 1, request nonce₃ patched :: quietly 28),
  (seeding none older, quietly 5)]

/-- **The receipt of a transaction only the ledger has can be missing.** -/
theorem pending_without_receipt :
    ∃ p, ((lapsing.host platform).ledger platform).pending = some p ∧
      (lapsing.host platform).journal.pending = none ∧
      p.receipt ∉ (lapsing.host platform).journal.consumed := by
  refine ⟨⟨nonce₃, "1.6.0", 5, 1000, 1180⟩, ?_⟩
  decide +kernel

end Lapse

end Lariska
