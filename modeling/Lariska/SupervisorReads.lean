import Lariska.PackageCache

/-!
# What the supervisor reads

Most of what a supervisor program does is reading: the two documents, the
package directories, the clock. While it reads, the endpoint may rewrite the
shared directory, and nothing else on the host changes. `Calm` is that
relation between two moments of a run, and `Observes` says of a program that
it only reads, and what it has found out when it returns.
-/

namespace Lariska

open Prog (lift need ensure attempt guarded)

/-! ## Calm -/

/-- **From one moment to a later one nothing but the shared directory has
changed**, and every step on the way was one the supervisor may take. -/
structure Calm (w w' : World) : Prop where
  root : w'.host.root = w.host.root
  installed : w'.host.installed = w.host.installed
  journal : w'.journal = w.journal
  reserved : reserved w'.trace = reserved w.trace
  lastAck : lastAck w'.trace = lastAck w.trace
  cleared : cleared w.trace = true → cleared w'.trace = true
  keeps : ∀ (P : Platform) (Configs : Config → Prop),
    Supervised P Configs w.trace w.host → Supervised P Configs w'.trace w'.host

namespace Calm

variable {w w' w'' : World}

theorem refl (w : World) : Calm w w := ⟨rfl, rfl, rfl, rfl, rfl, id, fun _ _ h => h⟩

theorem trans (h : Calm w w') (h' : Calm w' w'') : Calm w w'' where
  root := h'.root.trans h.root
  installed := h'.installed.trans h.installed
  journal := h'.journal.trans h.journal
  reserved := h'.reserved.trans h.reserved
  lastAck := h'.lastAck.trans h.lastAck
  cleared := fun hc => h'.cleared (h.cleared hc)
  keeps := fun P Configs hs => h'.keeps P Configs (h.keeps P Configs hs)

theorem script (w : World) (script : List Turn) : Calm w { w with script } :=
  ⟨rfl, rfl, rfl, rfl, rfl, id, fun _ _ h => h⟩

theorem endpoint (w : World) (now : Nat) (act : EndpointAct) :
    Calm w (w.happen (.endpoint now act)) where
  root := rfl
  installed := rfl
  journal := rfl
  reserved := rfl
  lastAck := rfl
  cleared := id
  keeps := fun _ _ hs => hs.next ⟨.endpoint now act, rfl⟩

theorem wroteMailbox (w : World) (write : MailboxWrite) :
    Calm w (w.happen (.wroteMailbox write)) where
  root := rfl
  installed := rfl
  journal := rfl
  reserved := rfl
  lastAck := rfl
  cleared := by
    intro hc
    cases write with
    | removeHealth => rfl
    | _ => exact hc
  keeps := fun _ _ hs => hs.next ⟨.wroteMailbox write, rfl⟩

theorem restarting (w : World) : Calm w (w.happen .restarting) where
  root := rfl
  installed := rfl
  journal := rfl
  reserved := rfl
  lastAck := rfl
  cleared := id
  keeps := fun _ _ hs => hs.next ⟨.restarting, rfl⟩

/-- The journal on disk is the same. -/
theorem host_journal (h : Calm w w') : w'.host.journal = w.host.journal := by
  rw [Host.journal, h.root, Host.journal]

/-- The ledger on disk is the same. -/
theorem host_ledger (h : Calm w w') (P : Platform) : w'.host.ledger P = w.host.ledger P := by
  rw [Host.ledger, h.root, Host.ledger]

theorem host_cache (h : Calm w w') (name : String) : w'.host.cache name = w.host.cache name := by
  rw [Host.cache, h.root, Host.cache]

end Calm

/-! ## Programs that only read -/

section Observes

variable {α β : Type} {w : World} {Q Q' : α → Prop}

/-- The program only reads, and returns a value of which `Q` holds. -/
def Observes (m : Act α) (w : World) (Q : α → Prop) : Prop :=
  m.Leads w (fun a w' => Calm w w' ∧ Q a) (fun _ => Calm w) (Calm w)

theorem Observes.imp {m : Act α} (h : Observes m w Q) (hQ : ∀ a, Q a → Q' a) :
    Observes m w Q' :=
  Prog.Leads.imp h (fun a _ ha => ⟨ha.1, hQ a ha.2⟩)

/-- **Going on after a program that only reads.** -/
theorem Observes.then {m : Act α} {f : α → Act β} {K : β → World → Prop}
    {E : Fault → World → Prop} {D : World → Prop} (h : Observes m w Q)
    (hK : ∀ a w', Calm w w' → Q a → (f a).Leads w' K E D)
    (hE : ∀ fault w', Calm w w' → E fault w') (hD : ∀ w', Calm w w' → D w') :
    (m >>= f).Leads w K E D :=
  Prog.leads_bind.mpr (Prog.Leads.mono h (fun a w' ha => hK a w' ha.1 ha.2) hE hD)

theorem Observes.bind {m : Act α} {f : α → Act β} {R : β → Prop} (h : Observes m w Q)
    (hf : ∀ a w', Calm w w' → Q a → Observes (f a) w' R) : Observes (m >>= f) w R := by
  refine h.then (fun a w' hc ha => ?_) (fun _ _ hc => hc) (fun _ hc => hc)
  exact Prog.Leads.mono (hf a w' hc ha) (fun b _ hb => ⟨hc.trans hb.1, hb.2⟩)
    (fun _ _ hc' => hc.trans hc') (fun _ hc' => hc.trans hc')

theorem observes_pure {a : α} (h : Q a) : Observes (pure a : Act α) w Q :=
  (Prog.leads_pure a).mpr ⟨Calm.refl w, h⟩

theorem observes_lift {x : Except Fault α} : Observes (lift x) w (fun a => x = .ok a) :=
  Prog.leads_lift.mpr ⟨fun _ ha => ⟨Calm.refl w, ha⟩, fun _ _ => Calm.refl w⟩

theorem observes_need {o : Option α} {fault : Fault} :
    Observes (need o fault) w (fun a => o = some a) :=
  Prog.leads_need.mpr ⟨fun _ ha => ⟨Calm.refl w, ha⟩, fun _ => Calm.refl w⟩

theorem observes_refuse {c : Prop} [Decidable c] {fault : Fault} :
    Observes (refuse c fault) w (fun _ => c) :=
  Prog.leads_ensure.mpr ⟨fun hc => ⟨Calm.refl w, hc⟩, fun _ => Calm.refl w⟩

theorem observes_fail {fault : Fault} : Observes (Prog.fail fault : Act α) w Q :=
  (Prog.leads_fail fault).mpr (Calm.refl w)

theorem observes_happen {e : Event} (h : Calm w (w.happen e)) :
    Observes (happen e) w (fun _ => True) := Prog.leads_modify.mpr ⟨h, trivial⟩

theorem observes_get : Observes Prog.get w (fun w' => w' = w) :=
  Prog.leads_get.mpr ⟨Calm.refl w, rfl⟩

theorem observes_ite {c : Prop} [Decidable c] {m m' : Act α} (h : c → Observes m w Q)
    (h' : ¬ c → Observes m' w Q) : Observes (if c then m else m') w Q :=
  Prog.leads_ite h h'

/-- A cleanup that only reads or writes the mailbox always returns. -/
theorem ignore_leads {m : Act Unit} (h : ∀ w, Observes m w (fun _ => True)) :
    (ignore m).Leads w (fun _ => Calm w) (fun _ _ => False) (Calm w) := by
  refine Prog.leads_bind.mpr (Prog.leads_attempt.mpr (Prog.Leads.mono (h w) ?_ ?_ ?_))
  · exact fun _ w' hw => (Prog.leads_pure _).mpr hw.1
  · exact fun _ w' hw => (Prog.leads_pure _).mpr hw
  · exact fun _ hw => hw

theorem observes_ignore {m : Act Unit} (h : ∀ w, Observes m w (fun _ => True)) :
    Observes (ignore m) w (fun _ => True) :=
  Prog.Leads.mono (ignore_leads h) (fun _ _ hc => ⟨hc, trivial⟩) (fun _ _ hf => hf.elim)
    (fun _ hc => hc)

/-- The endpoint's acts of one turn. -/
theorem calm_acts (now : Nat) (acts : List EndpointAct) (w : World) :
    Calm w (acts.foldl (fun w act => w.happen (.endpoint now act)) w) := by
  induction acts generalizing w with
  | nil => exact Calm.refl w
  | cons act acts ih => exact (Calm.endpoint w now act).trans (ih _)

/-- The turn taken is one of the script. -/
theorem observes_turn : Observes turn w (fun t => t ∈ w.script) := by
  unfold Observes Prog.Leads turn
  cases hs : w.script with
  | nil => exact Calm.refl w
  | cons t script =>
    have hc : Calm w
        (t.acts.foldl (fun w act => w.happen (.endpoint t.now act)) { w with script }) :=
      (Calm.script w script).trans (calm_acts t.now t.acts _)
    cases hf : t.fate with
    | killed => simpa [hf] using hc
    | _ => simpa [hf] using hc

theorem observes_step : Observes step w (fun t => t ∈ w.script) :=
  observes_turn.bind fun t w' _ ht => by
    cases t.fate with
    | failed _ => exact observes_fail
    | _ => exact observes_pure ht

/-- Reading the host shows the private root and the installed package. -/
theorem observes_inspect :
    Observes inspect w (fun h => h.root = w.host.root ∧ h.installed = w.host.installed) :=
  observes_step.bind fun _ w' hc _ => observes_get.bind fun w'' _ _ hw => by
    subst hw
    exact observes_pure ⟨hc.root, hc.installed⟩

theorem observes_getJournal : Observes getJournal w (fun j => j = w.journal) :=
  observes_get.bind fun _ _ _ hw => observes_pure (congrArg World.journal hw)

theorem observes_unixNow : Observes unixNow w (fun _ => True) :=
  observes_step.bind fun _ _ _ _ => observes_pure trivial

theorem observes_clockNow : Observes clockNow w (fun _ => True) :=
  observes_turn.bind fun t _ _ _ => by
    cases t.fate with
    | _ => exact observes_pure trivial

/-- A write to the mailbox is calm. -/
theorem observes_mailbox (write : MailboxWrite) :
    Observes (perform (.wroteMailbox write)) w (fun _ => True) :=
  observes_step.bind fun _ w' _ _ => observes_happen (Calm.wroteMailbox w' write)

/-- A write to the private root, or a failure without a trace. -/
theorem perform_leads {e : Event} {K : Unit → World → Prop} {E : Fault → World → Prop}
    {D : World → Prop} (hK : ∀ w', Calm w w' → K () (w'.happen e))
    (hE : ∀ fault w', Calm w w' → E fault w') (hD : ∀ w', Calm w w' → D w') :
    (perform e).Leads w K E D :=
  observes_step.then (fun _ w' hc _ => Prog.leads_modify.mpr (hK w' hc)) hE hD

end Observes

/-! ## The checks of a manifest -/

section Checks

variable {P : Platform} {config : Config} {signed : SignedManifest}

/-- What `verify_manifest_inner` has established of a manifest besides its
signature. -/
theorem verifyShape_eq_ok (h : verifyShape P config signed = .ok ()) :
    (∃ v, P.semver signed.manifest.version = .ok v) ∧
      signed.manifest.platform = P.targetTriple ∧
      config.updates.packageKind = some signed.manifest.packageKind ∧
      signed.manifest.version.utf8ByteSize ≤ 128 := by
  obtain ⟨_, -, h⟩ := Except.bind_eq_ok.mp h
  obtain ⟨_, -, h⟩ := Except.bind_eq_ok.mp h
  obtain ⟨_, hv, h⟩ := Except.bind_eq_ok.mp h
  obtain ⟨_, hp, h⟩ := Except.bind_eq_ok.mp h
  obtain ⟨_, hk, -⟩ := Except.bind_eq_ok.mp h
  cases hx : parseVersion P signed.manifest.version with
  | error e => rw [hx] at hv; cases hv
  | ok v =>
    have hx := parseVersion_eq_ok.mp hx
    exact ⟨⟨v, hx.2⟩, require_eq_ok.mp hp, (require_eq_ok.mp hk).2, hx.1⟩

/-- The signature check finds a key of the keyring that is not revoked. -/
theorem verifySignature_eq_ok (h : verifySignature P config signed = .ok ()) :
    ∃ key ∈ config.updates.trustedKeys, key.id = signed.manifest.keyId ∧ key.revoked = false ∧
      ∃ encoded verifying signature, decodeHex 32 key.publicKey = .ok encoded ∧
        P.verifyingKey encoded = .ok verifying ∧
        P.verifyStrict verifying signed.manifest.canonical signature = true := by
  unfold verifySignature at h
  split at h
  · exact absurd h (by simp)
  · next key hkey =>
    obtain ⟨encoded, he, h⟩ := Except.bind_eq_ok.mp h
    obtain ⟨signature, -, h⟩ := Except.bind_eq_ok.mp h
    split at h
    · exact absurd h (by simp)
    · next verifying hv =>
      have hk := List.find?_some hkey
      simp only [Bool.and_eq_true, beq_iff_eq, Bool.not_eq_true'] at hk
      exact ⟨key, List.mem_of_find?_eq_some hkey, hk.1, hk.2, encoded, verifying, signature,
        he, hv, require_eq_ok.mp h⟩

end Checks

/-! ## The documents and the directories -/

section Files

variable (P : Platform) {w : World}

theorem readLedger_observes :
    Observes (readLedger P) w (fun l => l = w.host.ledger P) := by
  refine observes_inspect.bind fun h w' _ hh => ?_
  have hl : h.ledger P = w.host.ledger P := by rw [Host.ledger, hh.1, Host.ledger]
  cases hr : h.root.ledger with
  | none =>
    refine observes_pure ?_
    rw [← hl, Host.ledger, hr, Option.getD_none]
  | some ledger =>
    refine observes_lift.bind fun _ _ _ _ => observes_pure ?_
    rw [← hl, Host.ledger, hr, Option.getD_some]

theorem readJournal_observes :
    Observes (readJournal P) w (fun j => j = w.host.journal) := by
  refine observes_inspect.bind fun h w' _ hh => ?_
  have hj : h.journal = w.host.journal := by rw [Host.journal, hh.1, Host.journal]
  cases hr : h.root.journal with
  | none =>
    refine observes_pure ?_
    rw [← hj, Host.journal, hr, Option.getD_none]
  | some j =>
    refine observes_lift.bind fun _ _ _ _ => observes_pure ?_
    rw [← hj, Host.journal, hr, Option.getD_some]

/-- The manifest in a directory. -/
theorem readManifest_observes (directory : String) :
    Observes (readManifest P directory) w (fun signed => ∃ d text,
      w.host.cache directory = some d ∧ d.manifest = some text ∧
        P.readSigned text = some signed) := by
  refine observes_inspect.bind fun h w₁ _ hh => ?_
  refine observes_need.bind fun text w₂ _ htext => ?_
  refine observes_refuse.bind fun _ w₃ _ _ => ?_
  refine observes_need.imp fun signed hsigned => ?_
  have hcache : h.cache directory = w.host.cache directory := by
    rw [Host.cache, hh.1, Host.cache]
  obtain ⟨d, hd, ht⟩ := Option.bind_eq_some_iff.mp htext
  exact ⟨d, text, hcache ▸ hd, ht, hsigned⟩

/-- `verify_manifest_inner` establishes the shape and the signature. -/
theorem verifyManifestInner_observes (config : Config) (signed : SignedManifest)
    (recovery : Bool) :
    Observes (verifyManifestInner P config signed recovery) w (fun _ =>
      verifyShape P config signed = .ok () ∧ verifySignature P config signed = .ok ()) := by
  refine observes_lift.bind fun _ w₁ _ hshape => ?_
  have key : ∀ w', Observes (lift (verifySignature P config signed)) w' (fun _ =>
      verifyShape P config signed = .ok () ∧ verifySignature P config signed = .ok ()) :=
    fun w' => observes_lift.imp fun _ hs => ⟨hshape, hs⟩
  dsimp only
  refine observes_ite (fun _ => key w₁) fun _ => ?_
  refine observes_unixNow.bind fun _ w₂ _ _ => ?_
  exact observes_refuse.bind fun _ w₃ _ _ => key w₃

/-- `verify_manifest` establishes what the anti-rollback check asks. -/
theorem verifyManifest_observes (config : Config) (signed : SignedManifest) :
    Observes (verifyManifest P config signed) w (fun _ =>
      (verifyShape P config signed = .ok () ∧ verifySignature P config signed = .ok ()) ∧
      config.Admitted P (w.host.ledger P) signed.manifest.version signed.manifest.sequence ∧
      (w.host.ledger P).pending = none) := by
  refine (verifyManifestInner_observes P config signed false).bind fun _ w₁ hc₁ hv => ?_
  refine (readLedger_observes P).bind fun l w₂ hc₂ hl => ?_
  refine observes_lift.bind fun floor w₃ _ hfloor => ?_
  refine observes_lift.bind fun candidate w₄ _ hcandidate => ?_
  refine observes_refuse.bind fun _ w₅ _ hadmit => ?_
  refine observes_refuse.imp fun _ hpending => ?_
  rw [hc₁.host_ledger P] at hl
  subst hl
  refine ⟨hv, hadmit.imp_right fun hnot => ?_, hpending⟩
  rw [not_or, not_lt, not_lt] at hnot
  exact ⟨floor, candidate, (parseVersion_eq_ok.mp hfloor).2,
    (parseVersion_eq_ok.mp hcandidate).2, hnot.1, hnot.2⟩

/-- `verify_artifact` establishes the size and the digest. -/
theorem verifyArtifact_observes (config : Config) (signed : SignedManifest)
    (directory : String) :
    Observes (verifyArtifact P config signed directory) w (fun _ => ∃ d artifact,
      w.host.cache directory = some d ∧ d.artifact = some artifact ∧
        artifact.length = signed.manifest.sizeBytes ∧
        P.sha256 artifact = signed.manifest.sha256) := by
  refine observes_refuse.bind fun _ w₁ hc₁ _ => ?_
  refine observes_inspect.bind fun _ w₂ hc₂ _ => ?_
  refine observes_need.bind fun _ w₃ hc₃ _ => ?_
  refine observes_refuse.bind fun _ w₄ hc₄ _ => ?_
  refine observes_inspect.bind fun h w₅ _ hh => ?_
  refine observes_need.bind fun artifact w₆ _ hartifact => ?_
  refine observes_refuse.bind fun _ w₇ _ _ => ?_
  refine observes_refuse.imp fun _ hmatch => ?_
  have hroot : h.root = w.host.root :=
    hh.1.trans (((hc₁.trans hc₂).trans hc₃).trans hc₄).root
  have hcache : h.cache directory = w.host.cache directory := by
    rw [Host.cache, hroot, Host.cache]
  obtain ⟨d, hd, ha⟩ := Option.bind_eq_some_iff.mp hartifact
  exact ⟨d, artifact, hcache ▸ hd, ha, hmatch.1, hmatch.2⟩

/-- A directory whose package the local policy vouches for. -/
def Host.Verified (h : Host) (config : Config) (directory : String) (m : ReleaseManifest) :
    Prop :=
  ∃ d artifact, h.cache directory = some d ∧ d.Holds P m ∧ d.artifact = some artifact ∧
    config.Vouches P m artifact

variable {P}

/-- The three checks make a verified directory. -/
theorem Host.verified_of_checks {h : Host} {config : Config} {directory : String}
    {signed : SignedManifest}
    (hmanifest : ∃ d text, h.cache directory = some d ∧ d.manifest = some text ∧
      P.readSigned text = some signed)
    (hshape : verifyShape P config signed = .ok ())
    (hsigned : verifySignature P config signed = .ok ())
    (hartifact : ∃ d artifact, h.cache directory = some d ∧ d.artifact = some artifact ∧
      artifact.length = signed.manifest.sizeBytes ∧
      P.sha256 artifact = signed.manifest.sha256) :
    h.Verified P config directory signed.manifest := by
  obtain ⟨d, text, hd, htext, hread⟩ := hmanifest
  obtain ⟨d', artifact, hd', ha, hsize, hdigest⟩ := hartifact
  cases hd.symm.trans hd'
  obtain ⟨-, hplatform, hkind, -⟩ := verifyShape_eq_ok hshape
  exact ⟨d, artifact, hd, ⟨text, signed, artifact, htext, hread, rfl, ha, hsize, hdigest⟩, ha,
    hsize, hdigest, hplatform, hkind, verifySignature_eq_ok hsigned⟩

theorem Host.Verified.stores {h : Host} {config : Config} {directory : String}
    {m : ReleaseManifest} (hv : h.Verified P config directory m) : h.Stores P ⟨m, directory⟩ := by
  obtain ⟨d, _, hd, holds, -⟩ := hv
  exact ⟨d, hd, holds⟩

/-- A directory holds one release. -/
theorem Host.Verified.unique {h : Host} {config : Config} {r : CachedRelease}
    {m : ReleaseManifest} (hv : h.Verified P config r.directory m) (hs : h.Stores P r) :
    m = r.manifest := by
  obtain ⟨d, _, hd, ⟨text, signed, _, htext, hread, hm, -⟩, -⟩ := hv
  obtain ⟨d', hd', text', signed', _, htext', hread', hm', -⟩ := hs
  cases hd.symm.trans hd'
  cases htext.symm.trans htext'
  cases hread.symm.trans hread'
  exact hm.symm.trans hm'

variable (P)

/-- **What `verify_files` establishes.** -/
theorem verifyFiles_observes (config : Config) (directory : String) :
    Observes (verifyFiles P config directory) w (fun m =>
      w.host.Verified P config directory m ∧
      (∃ v, P.semver m.version = .ok v) ∧ m.version.utf8ByteSize ≤ 128 ∧
      config.Admitted P (w.host.ledger P) m.version m.sequence ∧
      (w.host.ledger P).pending = none) := by
  refine (readManifest_observes P directory).bind fun signed w₁ hc₁ hmanifest => ?_
  refine (verifyManifest_observes P config signed).bind fun _ w₂ hc₂ hchecks => ?_
  refine (verifyArtifact_observes P config signed directory).bind fun _ w₃ _ hartifact => ?_
  rw [hc₁.host_ledger P] at hchecks
  rw [(hc₁.trans hc₂).host_cache] at hartifact
  obtain ⟨hshape, hsigned⟩ := hchecks.1
  obtain ⟨hversion, -, -, hlength⟩ := verifyShape_eq_ok hshape
  exact observes_pure ⟨Host.verified_of_checks hmanifest hshape hsigned hartifact, hversion,
    hlength, hchecks.2⟩

/-- **What `verify_files_for_recovery` establishes.** -/
theorem verifyFilesForRecovery_observes (config : Config) (directory : String) :
    Observes (verifyFilesForRecovery P config directory) w (fun m =>
      w.host.Verified P config directory m) := by
  refine (readManifest_observes P directory).bind fun signed w₁ hc₁ hmanifest => ?_
  refine (verifyManifestInner_observes P config signed true).bind fun _ w₂ hc₂ hchecks => ?_
  refine (verifyArtifact_observes P config signed directory).bind fun _ w₃ _ hartifact => ?_
  rw [(hc₁.trans hc₂).host_cache] at hartifact
  exact observes_pure (Host.verified_of_checks hmanifest hchecks.1 hchecks.2 hartifact)

/-! ## The mailbox -/

/-- Publishing the window removes the previous acknowledgement first. -/
theorem publishPendingHealth_leads (p : PendingUpdate) :
    (publishPendingHealth p).Leads w
      (fun _ w' => Calm w w' ∧ cleared w'.trace = true) (fun _ => Calm w) (Calm w) := by
  refine observes_step.then (fun _ w₁ hc₁ _ => ?_) (fun _ _ hc => hc) (fun _ hc => hc)
  refine Prog.leads_bind.mpr (perform_leads (fun w₂ hc₂ => ?_)
    (fun _ _ hc => hc₁.trans hc) (fun _ hc => hc₁.trans hc))
  have hc₂' := (hc₁.trans hc₂).trans (Calm.wroteMailbox w₂ .removeHealth)
  have hcleared : cleared (w₂.happen (.wroteMailbox .removeHealth)).trace = true := rfl
  refine perform_leads (fun w₃ hc₃ => ⟨?_, ?_⟩) (fun _ _ hc => hc₂'.trans hc)
    (fun _ hc => hc₂'.trans hc)
  · exact (hc₂'.trans hc₃).trans (Calm.wroteMailbox w₃ (.publishPending p))
  · exact (hc₃.trans (Calm.wroteMailbox w₃ (.publishPending p))).cleared hcleared

theorem ackRequest_observes (nonce outcome : String) :
    Observes (ackRequest nonce outcome) w (fun _ => True) := by
  refine observes_lift.bind fun _ w₁ _ _ => ?_
  refine observes_refuse.bind fun _ w₂ _ _ => ?_
  refine observes_step.bind fun _ w₃ _ _ => ?_
  exact observes_unixNow.bind fun _ w₄ _ _ => observes_mailbox _

theorem verifySignatureNative_observes : Observes verifySignatureNative w (fun _ => True) :=
  observes_step.bind fun _ _ _ _ => observes_pure trivial

theorem restart_observes : Observes restart w (fun _ => True) := by
  refine observes_turn.bind fun t w₁ _ _ => ?_
  refine (observes_happen (Calm.restarting w₁)).bind fun _ w₂ _ _ => ?_
  cases t.fate with
  | failed _ => exact observes_fail
  | _ => exact observes_pure trivial

theorem incomingRequests_observes : Observes incomingRequests w (fun _ => True) :=
  observes_inspect.bind fun _ _ _ _ => observes_pure trivial

theorem installedAgentVersion_observes :
    Observes installedAgentVersion w (fun v => v = w.host.installed.version) :=
  observes_inspect.bind fun _ _ _ hh => observes_pure (congrArg _ hh.2)

end Files

end Lariska
