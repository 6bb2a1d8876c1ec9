import Lariska.ClientCertificate

/-!
# The keys of certificate requests

Once a signing request is sent, the server may have issued a certificate for
it, whether or not the answer arrives; without the private key that
certificate is lost. `requested_keys_survive` says that the key is in one of
the two documents from before the request is sent until another bundle takes
its place, and that the identity on disk is always a matching pair which is
renewed before it expires.

The proof follows the programs. `Durable` is what holds of the documents at
every point, `Secured` what holds with the memory of a process beside them,
and `Published` what holds between the publication of a bundle and the end of
its enrollment, where the document of the request goes.
-/

namespace Lariska.Mtls

/-! ## The statement -/

/-- The keys of the requests sent, each until a bundle with another key is
published. -/
def outstanding : Past Files Event → List String
  | [] => []
  | (.sent _ pending, _) :: past => pending.key :: outstanding past
  | (.storedBundle bundle, _) :: past => (outstanding past).filter (fun key => key = bundle.key)
  | _ :: past => outstanding past

/-- The key is in one of the two documents. -/
def Files.Holds (files : Files) (key : String) : Prop :=
  (∃ b ∈ files.identity, b.key = key) ∨ ∃ p ∈ files.enrollment, p.key = key

/-- A certificate matches its key, and is renewed before it expires. -/
def Bundle.Sound (K : Pki) (b : Bundle) : Prop :=
  ∃ certificate renewal, K.parseCertificate b.certificate = .ok certificate ∧
    K.publicKey b.key = .ok certificate.publicKey ∧ K.parseTime b.renewAfter = .ok renewal ∧
    renewal < certificate.notAfter

/-- An HTTP client can be built with the identity. -/
def Bundle.Presentable (K : Pki) (b : Bundle) : Prop := K.identity b.pem = .ok ()

/-- The key belongs to the signing request. -/
def Pending.Matched (K : Pki) (p : Pending) : Prop := K.publicKey p.key = .ok (K.requestKey p.csr)

/-- The documents hold every outstanding key, and a sound identity if any. -/
structure Files.Safe (K : Pki) (past : Past Files Event) (files : Files) : Prop where
  kept : ∀ key ∈ outstanding past, files.Holds key
  identity : ∀ b ∈ files.identity, b.Sound K

/-- A request is sent with its key stored. -/
def Event.FromStored (K : Pki) (files : Files) : Event → Prop
  | .sent _ pending => pending.Matched K ∧ files.Holds pending.key
  | _ => True

variable {K : Pki} {config : Config} {w : World}

/-- The checks of `validate` say that a bundle is sound. -/
theorem validate_eq_ok {b : Bundle} (h : validate K b = .ok ()) : b.Sound K := by
  unfold validate at h
  cases hk : K.publicKey b.key with
  | error e => simp [hk, Except.mapError, bind, Except.bind] at h
  | ok key =>
    cases hc : K.parseCertificate b.certificate with
    | error e => simp [hk, hc, Except.mapError, bind, Except.bind] at h
    | ok certificate =>
      simp only [hk, hc, Except.mapError, bind, Except.bind, ne_eq, ite_not, ge_iff_le] at h
      split at h
      · next hmatch =>
        cases ht : K.parseTime b.renewAfter with
        | error e => simp [ht] at h
        | ok renewal =>
          simp only [ht] at h
          split at h
          · cases h
          · next hlt => exact ⟨certificate, renewal, hc, hmatch ▸ hk, ht, lt_of_not_ge hlt⟩
      · cases h

/-! ## What holds along the programs -/

/-- What holds of the documents at every point. -/
structure Durable (K : Pki) (past : Past Files Event) (files : Files) : Prop
    extends Files.Safe K past files where
  presentable : ∀ b ∈ files.identity, b.Presentable K
  matched : ∀ p ∈ files.enrollment, p.Matched K
  steps : Throughout (fun past files e => files.Safe K past ∧ e.FromStored K files) past

/-- What holds of the documents and the memory of a process. -/
structure Secured (K : Pki) (past : Past Files Event) (files : Files) (memory : State) : Prop
    extends Durable K past files where
  loaded : ∀ b ∈ memory.bundle, b.Sound K ∧ b.Presentable K
  alone : memory.unavailable = true → memory.bundle = none
  pending : ∀ p ∈ memory.pending, p.Matched K ∧ files.Holds p.key
  settled : memory.pending = none → ∀ key ∈ outstanding past, ∃ b ∈ files.identity, b.key = key

/-- Between the publication of a bundle and the end of its enrollment: nothing
else is outstanding. -/
structure Published (K : Pki) (key : String) (past : Past Files Event) (files : Files)
    (memory : State) : Prop extends Secured K past files memory where
  stored : ∃ b ∈ files.identity, b.key = key
  only : ∀ other ∈ outstanding past, other = key

variable {past : Past Files Event} {files : Files} {memory : State}

theorem Durable.next {e : Event} (h : Durable K past files) (he : e.FromStored K files) :
    Throughout (fun past files e => files.Safe K past ∧ e.FromStored K files)
      ((e, files) :: past) :=
  throughout_cons.mpr ⟨⟨h.toSafe, he⟩, h.steps⟩

/-- A request is sent. -/
theorem Secured.sent {route : Route} {pending : Pending} (h : Secured K past files memory)
    (hp : memory.pending = some pending) :
    Secured K ((.sent route pending, files) :: past) files memory := by
  obtain ⟨hmatched, hholds⟩ := h.pending pending hp
  refine ⟨⟨⟨fun key hkey => ?_, h.identity⟩, h.presentable, h.matched, h.next ⟨hmatched, hholds⟩⟩, h.loaded, h.alone,
    h.pending, fun hnone => ?_⟩
  · rcases List.mem_cons.mp hkey with rfl | hkey
    · exact hholds
    · exact h.kept key hkey
  · rw [hp] at hnone
    cases hnone

/-- A request is stored by a process that has none. -/
theorem Secured.storedPending {pending : Pending} (h : Secured K past files memory)
    (hnone : memory.pending = none) (hmatched : pending.Matched K) :
    Secured K ((.storedPending pending, files) :: past) (Event.apply (.storedPending pending) files)
      memory := by
  refine ⟨⟨⟨fun key hkey => .inl (h.settled hnone key hkey), h.identity⟩, h.presentable,
    fun p hp => ?_, h.next trivial⟩, h.loaded, h.alone, fun p hp => ?_, h.settled⟩
  · cases hp
    exact hmatched
  · rw [hnone] at hp
    cases hp

/-- A sound bundle is published for the request of the process. -/
theorem Secured.storedBundle {pending : Pending} {bundle : Bundle}
    (h : Secured K past files memory) (hp : memory.pending = some pending)
    (hkey : bundle.key = pending.key) (hsound : bundle.Sound K)
    (hpresentable : bundle.Presentable K) :
    Published K pending.key ((.storedBundle bundle, files) :: past)
      (Event.apply (.storedBundle bundle) files) memory := by
  have honly : ∀ key ∈ outstanding ((.storedBundle bundle, files) :: past), key = pending.key :=
    fun key hk => (of_decide_eq_true (List.mem_filter.mp hk).2).trans hkey
  have hstored : ∃ b ∈ (Event.apply (.storedBundle bundle) files).identity, b.key = pending.key :=
    ⟨bundle, rfl, hkey⟩
  refine ⟨⟨⟨⟨fun key hk => .inl (honly key hk ▸ hstored), fun b hb => ?_⟩, fun b hb => ?_, h.matched,
    h.next trivial⟩, h.loaded, h.alone, fun p hp' => ?_, fun hnone => ?_⟩, hstored, honly⟩
  · cases hb
    exact hsound
  · cases hb
    exact hpresentable
  · have hsame : pending = p := Option.some.inj (hp.symm.trans hp')
    exact ⟨(h.pending p hp').1, .inl (hsame ▸ hstored)⟩
  · rw [hp] at hnone
    cases hnone

/-- The document of a finished request goes. -/
theorem Published.removedPending {pending : Pending}
    (h : Published K pending.key past files memory) (hp : memory.pending = some pending) :
    Published K pending.key ((.removedPending, files) :: past) (Event.apply .removedPending files)
      memory := by
  refine ⟨⟨⟨⟨fun key hk => .inl (h.only key hk ▸ h.stored), h.identity⟩, h.presentable,
    fun p hp' => ?_, h.next trivial⟩, h.loaded, h.alone, fun p hp' => ?_, fun hnone => ?_⟩, h.stored, h.only⟩
  · cases hp'
  · have hsame : pending = p := Option.some.inj (hp.symm.trans hp')
    exact ⟨(h.pending p hp').1, .inl (hsame ▸ h.stored)⟩
  · rw [hp] at hnone
    cases hnone

/-! ## Along the programs -/

/-- An assertion about a world that does not read the script. -/
def World.Has (A : Past Files Event → Files → State → Prop) (w : World) : Prop :=
  A w.trace w.files w.self

/-- A program that only takes turns, whatever is asserted. -/
def Quiet {α : Type} (m : Act α) : Prop := ∀ A, m.Keeps (World.Has A)

section Quiet

theorem quiet_turn : Quiet turn := by
  intro A w h
  unfold Prog.Leads turn
  cases hscript : w.script with
  | nil => exact h
  | cons t script =>
    cases hfate : t.fate with
    | killed => simpa [hfate, World.Has] using h
    | _ => simpa [hfate, World.Has] using h

theorem quiet_step : Quiet step := by
  intro A
  refine (quiet_turn A).bind fun t => ?_
  cases t.fate with
  | failed _ => exact Prog.keeps_fail _
  | _ => exact Prog.keeps_pure _

theorem quiet_exchange : Quiet exchange := by
  intro A
  refine (quiet_turn A).bind fun t => ?_
  cases t.fate with
  | failed _ => exact Prog.keeps_fail _
  | _ => exact Prog.keeps_pure _

theorem quiet_clock : Quiet clock := fun A => (quiet_turn A).bind fun _ => Prog.keeps_pure _

theorem quiet_library {α : Type} (x : Except String α) : Quiet (library x) := fun _ => Prog.keeps_lift

theorem quiet_validNow (b : Bundle) : Quiet (validNow K b) := fun A =>
  (quiet_library _ A).bind fun _ => (quiet_clock A).bind fun _ => Prog.keeps_pure _

theorem quiet_build (bundle : Option Bundle) : Quiet (build K config bundle) := by
  intro A
  have hidentity : (useIdentity K bundle).Keeps (World.Has A) := by
    cases bundle with
    | none => exact Prog.keeps_pure ()
    | some b => exact quiet_library _ A
  have hauthority : (readAuthority config).Keeps (World.Has A) :=
    Prog.keeps_ite (fun _ => Prog.keeps_pure ()) fun _ => quiet_step A
  exact hauthority.bind fun _ => hidentity.bind fun _ => (quiet_step A).bind fun _ =>
    Prog.keeps_pure _

/-- A client that is built can present its identity. -/
theorem build_presents (bundle : Option Bundle) (w : World) :
    (build K config bundle).Leads w (fun _ _ => ∀ b ∈ bundle, b.Presentable K)
      (fun _ _ => True) (fun _ => True) := by
  refine Prog.leads_bind.mpr (((readAuthority config).leads_true w).imp fun _ w₁ _ => ?_)
  refine Prog.leads_bind.mpr ?_
  have hrest : (∀ b ∈ bundle, b.Presentable K) → ∀ w : World, (do
      step
      pure ⟨bundle⟩ : Act Client).Leads w (fun _ _ => ∀ b ∈ bundle, b.Presentable K)
        (fun _ _ => True) (fun _ => True) := fun h w =>
    Prog.leads_bind.mpr ((step.leads_true w).imp fun _ _ _ => (Prog.leads_pure _).mpr h)
  cases bundle with
  | none => exact (Prog.leads_pure _).mpr (hrest (fun b hb => by cases hb) w₁)
  | some b =>
    refine Prog.leads_lift.mpr ⟨fun _ hidentity => hrest (fun b' hb' => ?_) w₁, fun _ _ => trivial⟩
    cases hb'
    show K.identity b.pem = .ok ()
    cases hi : K.identity b.pem with
    | ok _ => rfl
    | error e => simp [hi, Except.mapError] at hidentity

theorem quiet_usableBundle (bundle : Option Bundle) : Quiet (usableBundle K bundle) := by
  intro A
  cases bundle with
  | none => exact Prog.keeps_pure _
  | some b =>
    refine (Prog.keeps_attempt (quiet_validNow b A)).bind fun valid => ?_
    cases valid with
    | ok valid => exact Prog.keeps_pure _
    | error _ => exact Prog.keeps_pure _

theorem quiet_client : Quiet (client K config) := fun A =>
  Prog.keeps_get.bind fun w => (quiet_usableBundle w.self.bundle A).bind fun _ => quiet_build _ A

theorem quiet_classifyResponse (response : Response) : Quiet (classifyResponse K response) := by
  intro A
  have hbody : ∀ limit, (readBody response limit).Keeps (World.Has A) := fun _ =>
    (quiet_exchange A).bind fun _ => Prog.keeps_pure _
  refine Prog.keeps_ite (fun _ => (hbody _).bind fun body => ?_) fun _ =>
    (hbody _).bind fun _ => Prog.keeps_fail _
  cases body with
  | none => exact Prog.keeps_fail _
  | some body => exact Prog.keeps_lift

theorem quiet_renewalDue (now : Int) (bundle : Option Bundle) :
    Quiet (renewalDue K now bundle) := by
  intro A
  cases bundle with
  | none => exact Prog.keeps_pure _
  | some b =>
    exact (quiet_validNow b A).bind fun valid => Prog.keeps_ite
      (fun _ => (quiet_library _ A).bind fun _ => Prog.keeps_pure _) fun _ => Prog.keeps_pure _

end Quiet

/-- The process has this request, and the documents are in order. -/
structure Asking (K : Pki) (request : Pending) (past : Past Files Event) (files : Files)
    (memory : State) : Prop extends Secured K past files memory where
  asking : memory.pending = some request
  available : memory.unavailable = false

/-- A program of an enrollment: wherever it ends, all is in order. -/
abbrev Secures {α : Type} (m : Act α) (w : World) (B : α → World → Prop) : Prop :=
  m.Leads w B (fun _ => World.Has (Secured K)) (World.Has (Secured K))

variable {A B : Past Files Event → Files → State → Prop} {request : Pending}

theorem World.Has.mono (h : w.Has A) (hAB : ∀ past files memory, A past files memory →
    B past files memory) : w.Has B := hAB _ _ _ h

/-- Taking turns, and going on. -/
theorem Quiet.secures {α β : Type} {m : Act α} {f : α → Act β} {C : β → World → Prop}
    (hm : Quiet m) (hA : ∀ past files memory, A past files memory → Secured K past files memory)
    (h : w.Has A) (hf : ∀ a w', w'.Has A → Secures (K := K) (f a) w' C) :
    Secures (K := K) (m >>= f) w C :=
  Prog.leads_bind.mpr ((hm A w h).mono (fun a w' h' => hf a w' h') (fun _ _ h' => h'.mono hA)
    fun _ h' => h'.mono hA)

/-- A document is written: before and after it all is in order. -/
theorem persistNamed_secures {e : Event}
    (hA : ∀ past files memory, A past files memory → Secured K past files memory)
    (hB : ∀ past files memory, B past files memory → Secured K past files memory)
    (h : w.Has A) (hstep : ∀ past files memory, A past files memory →
      B ((e, files) :: past) (e.apply files) memory) :
    Secures (K := K) (persistNamed e) w (fun _ => World.Has B) := by
  refine quiet_step.secures hA h fun _ w₁ h₁ => quiet_step.secures hA h₁ fun _ w₂ h₂ => ?_
  refine Prog.leads_bind.mpr (Prog.leads_modify.mpr ?_)
  have h₃ : (w₂.happen e).Has B := hstep _ _ _ h₂
  exact (quiet_step B _ h₃).mono (fun _ _ h' => h') (fun _ _ h' => h'.mono hB)
    fun _ h' => h'.mono hB

theorem Asking.secured (past : Past Files Event) (files : Files) (memory : State)
    (h : Asking K request past files memory) : Secured K past files memory := h.toSecured

/-- **A new key is stored before the process has its request.** -/
theorem newPending_secures (h : w.Has (Secured K)) (hnone : w.self.pending = none)
    (havailable : w.self.unavailable = false) :
    Secures (K := K) (newPending K config) w (fun request => World.Has (Asking K request)) := by
  have hA : ∀ past files memory, Secured K past files memory ∧ memory.pending = none ∧
      memory.unavailable = false → Secured K past files memory := fun _ _ _ h => h.1
  refine quiet_turn.secures hA ⟨h, hnone, havailable⟩ fun t w₁ h₁ => ?_
  refine Prog.leads_bind.mpr (Prog.leads_lift.mpr ⟨fun pair hpair => ?_, fun _ _ => h₁.1⟩)
  obtain ⟨key, csr⟩ := pair
  have hgenerated : K.generate t.random = .ok (key, csr) := by
    cases hg : K.generate t.random with
    | error e => simp [hg, Except.mapError] at hpair
    | ok pair =>
      simp only [hg, Except.mapError, Except.ok.injEq] at hpair
      rw [hpair]
  have hmatched : Pending.Matched K ⟨key, csr, config.serverUrl⟩ := K.generate_key _ _ _ hgenerated
  refine Prog.leads_bind.mpr ((persistNamed_secures (B := fun past files memory =>
    Secured K past files memory ∧ files.Holds key ∧ memory.unavailable = false) hA
    (fun _ _ _ h => h.1) h₁ fun _ _ _ h =>
      ⟨h.1.storedPending h.2.1 hmatched, .inr ⟨_, rfl, rfl⟩, h.2.2⟩).mono
    (fun _ w₂ h₂ => ?_) (fun _ _ h => h) fun _ h => h)
  refine Prog.leads_bind.mpr (Prog.leads_modify.mpr ((Prog.leads_pure _).mpr ?_))
  obtain ⟨hs, hholds, havailable⟩ := h₂
  refine ⟨⟨hs.toDurable, hs.loaded, hs.alone, fun p hp => ?_, fun hn => by cases hn⟩, rfl,
    havailable⟩
  cases hp
  exact ⟨hmatched, hholds⟩

/-- A request is sent for the key the process has. -/
theorem requestCertificate_secures (route : Route) (h : w.Has (Asking K request)) :
    Secures (K := K) (requestCertificate K config route request) w
      (fun _ => World.Has (Asking K request)) := by
  refine quiet_client.secures Asking.secured h fun _ w₁ h₁ => ?_
  refine Prog.leads_bind.mpr (Prog.leads_modify.mpr ?_)
  have h₂ : (w₁.happen (.sent route request)).Has (Asking K request) :=
    ⟨Secured.sent h₁.toSecured h₁.asking, h₁.asking, h₁.available⟩
  exact quiet_exchange.secures Asking.secured h₂ fun _ w₃ h₃ => (Prog.leads_pure _).mpr h₃

/-- **Publication**: the identity is sound, and the key stays stored. -/
theorem publish_secures (issued : Issued) (h : w.Has (Asking K request)) :
    Secures (K := K) (publish K config request issued) w (fun _ => World.Has (Secured K)) := by
  unfold publish
  extract_lets bundle
  refine Prog.leads_bind.mpr (Prog.leads_lift.mpr ⟨fun _ hvalid => ?_, fun _ _ => h.toSecured⟩)
  have hsound : bundle.Sound K := validate_eq_ok hvalid
  refine (quiet_validNow bundle).secures Asking.secured h fun valid w₁ h₁ => ?_
  refine Prog.leads_bind.mpr (Prog.leads_ensure.mpr ⟨fun _ => ?_, fun _ => h₁.toSecured⟩)
  have hkeeps : (build K config (some bundle)).Keeps (World.Has (Asking K request)) :=
    quiet_build (some bundle) _
  have hbuild := (hkeeps w₁ h₁).and (build_presents (some bundle) w₁)
  refine Prog.leads_bind.mpr (hbuild.mono (fun client w₂ hbuilt => ?_) (fun _ _ h => h.1.toSecured)
    fun _ h => h.1.toSecured)
  obtain ⟨h₂, hpresents⟩ := hbuilt
  have hpresentable : bundle.Presentable K := hpresents bundle rfl
  let Done := fun past files (memory : State) =>
    Published K request.key past files memory ∧ memory.pending = some request ∧
      memory.unavailable = false
  have hDone : ∀ past files memory, Done past files memory → Secured K past files memory :=
    fun _ _ _ h => h.1.toSecured
  refine Prog.leads_bind.mpr ((persistNamed_secures (B := Done) Asking.secured hDone h₂
    fun _ _ _ ha => ⟨ha.toSecured.storedBundle ha.asking rfl hsound hpresentable, ha.asking, ha.available⟩).mono
    (fun _ w₃ h₃ => ?_) (fun _ _ h => h) fun _ h => h)
  have hremove : Secures (K := K) removePending w₃ (fun _ => World.Has Done) := by
    refine quiet_step.secures hDone h₃ fun _ w₄ h₄ => ?_
    refine Prog.leads_bind.mpr (Prog.leads_get.mpr (Prog.leads_bind.mpr
      (Prog.leads_ensure.mpr ⟨fun _ => ?_, fun _ => h₄.1.toSecured⟩)))
    exact Prog.leads_modify.mpr ⟨h₄.1.removedPending h₄.2.1, h₄.2⟩
  refine Prog.leads_bind.mpr (hremove.imp fun _ w₄ h₄ => ?_)
  refine quiet_step.secures hDone h₄ fun _ w₅ h₅ => ?_
  refine Prog.leads_bind.mpr (Prog.leads_modify.mpr ((Prog.leads_pure _).mpr ?_))
  obtain ⟨hp, -, havailable⟩ := h₅
  refine ⟨hp.toDurable, fun b hb => ?_, fun hu => ?_, fun p hn => (by cases hn),
    fun _ key hk => hp.only key hk ▸ hp.stored⟩
  · cases hb
    exact ⟨hsound, hpresentable⟩
  · exact absurd (havailable.symm.trans hu) Bool.false_ne_true

theorem issueNew_secures (h : w.Has (Asking K request)) :
    Secures (K := K) (issueNew K config request) w (fun _ => World.Has (Secured K)) := by
  refine Prog.leads_bind.mpr ((requestCertificate_secures .issue h).imp fun response w₁ h₁ => ?_)
  refine Prog.leads_bind.mpr (Prog.leads_get.mpr (Prog.leads_ite (fun hmissing => ?_) fun _ => ?_))
  · refine Prog.leads_bind.mpr (Prog.leads_modify.mpr (quiet_client _ _ ?_))
    exact ⟨h₁.toDurable, h₁.loaded, fun _ => hmissing.2, h₁.pending, h₁.settled⟩
  · exact (quiet_classifyResponse response).secures Asking.secured h₁ fun issued w₂ h₂ =>
      publish_secures issued h₂

/-- **Wherever an enrollment ends, all is in order.** -/
theorem enroll_secures (h : w.Has (Secured K)) (havailable : w.self.unavailable = false) :
    Secures (K := K) (enroll K config) w (fun _ => World.Has (Secured K)) := by
  refine Prog.leads_bind.mpr (Prog.leads_get.mpr ?_)
  cases hp : w.self.pending with
  | none =>
    exact Prog.leads_bind.mpr ((newPending_secures h hp havailable).imp fun request w₁ h₁ =>
      issueNew_secures h₁)
  | some request =>
    have hasking : w.Has (Asking K request) := ⟨h, hp, havailable⟩
    refine Prog.leads_bind.mpr ((requestCertificate_secures .recover hasking).imp
      fun response w₁ h₁ => Prog.leads_ite (fun _ => issueNew_secures h₁) fun _ => ?_)
    exact (quiet_classifyResponse response).secures Asking.secured h₁ fun issued w₂ h₂ =>
      publish_secures issued h₂

/-! ## Runs -/

/-- Only the back-off changes. -/
theorem Secured.retryAt (h : Secured K past files memory) (retryAt : Int) :
    Secured K past files { memory with retryAt } :=
  ⟨h.toDurable, h.loaded, h.alone, h.pending, h.settled⟩

theorem ensure_keeps : (ensure K config).Keeps (World.Has (Secured K)) := by
  have hI : ∀ past files memory, Secured K past files memory → Secured K past files memory :=
    fun _ _ _ h => h
  have hclient : (client K config).Keeps (World.Has (Secured K)) := quiet_client _
  intro w h
  refine quiet_clock.secures hI h fun now w₁ h₁ => Prog.leads_bind.mpr (Prog.leads_get.mpr ?_)
  refine Prog.leads_ite (fun _ => hclient w₁ h₁) fun hopen => ?_
  have havailable : w₁.self.unavailable = false := by
    rw [not_or] at hopen
    exact Bool.not_eq_true _ ▸ hopen.2
  -- Until the enrollment starts only turns are taken.
  let Open := fun past files (memory : State) =>
    Secured K past files memory ∧ memory.unavailable = false
  have hOpen : ∀ past files memory, Open past files memory → Secured K past files memory :=
    fun _ _ _ h => h.1
  have hopen₁ : w₁.Has Open := ⟨h₁, havailable⟩
  refine (quiet_renewalDue now w₁.self.bundle).secures hOpen hopen₁ fun due w₂ h₂ => ?_
  refine Prog.leads_ite (fun _ => hclient w₂ h₂.1) fun _ => ?_
  refine (quiet_usableBundle w₁.self.bundle).secures hOpen h₂ fun usable w₃ h₃ => ?_
  refine Prog.leads_ite (fun _ => Prog.leads_ite (fun _ => hclient w₃ h₃.1)
    fun _ => (Prog.leads_fail _).mpr h₃.1) fun _ => ?_
  refine Prog.leads_bind.mpr (Prog.leads_modify.mpr (Prog.leads_bind.mpr (Prog.leads_attempt.mpr ?_)))
  have hretry : World.Has (Secured K) { w₃ with self := { w₃.self with retryAt := now + 300 } } :=
    h₃.1.retryAt _
  refine (enroll_secures hretry h₃.2).mono (fun _ w₄ h₄ => (Prog.leads_pure _).mpr h₄)
    (fun fault w₄ h₄ => ?_) fun _ h₄ => h₄
  cases fault with
  | auth =>
    exact Prog.leads_bind.mpr (Prog.leads_modify.mpr ((Prog.leads_fail _).mpr (h₄.retryAt 0)))
  | _ => exact Prog.leads_ite (fun _ => hclient w₄ h₄) fun _ => (Prog.leads_fail _).mpr h₄

/-- The documents are in order, whatever the process has. -/
def Documents (K : Pki) (past : Past Files Event) (files : Files) (_ : State) : Prop :=
  Durable K past files

/-- What a process loads is in order, and loading changes no document. -/
theorem load_leads (h : w.Has (Documents K)) :
    (load K config).Leads w (fun s w' => Secured K w'.trace w'.files s)
      (fun _ => World.Has (Documents K)) (World.Has (Documents K)) := by
  let Same := fun past files (_ : State) => Durable K past files ∧ files = w.files
  have hSame : ∀ w' : World, w'.Has Same → w'.Has (Documents K) := fun _ h => h.1
  have hsame : w.Has Same := ⟨h, rfl⟩
  refine Prog.leads_bind.mpr ((quiet_step Same w hsame).mono (fun _ w₁ h₁ => ?_)
    (fun _ => hSame) hSame)
  refine Prog.leads_bind.mpr (Prog.leads_get.mpr ?_)
  have hidentity : (checkIdentity K w₁.files.identity).Keeps (World.Has Same) := by
    cases w₁.files.identity with
    | none => exact Prog.keeps_pure ()
    | some b => exact Prog.keeps_lift
  refine Prog.leads_bind.mpr ((hidentity w₁ h₁).mono (fun _ w₂ h₂ => ?_) (fun _ => hSame) hSame)
  refine Prog.leads_bind.mpr ((quiet_step Same w₂ h₂).mono (fun _ w₃ h₃ => ?_)
    (fun _ => hSame) hSame)
  have henrollment : (checkEnrollment K config w₁.files.enrollment).Keeps (World.Has Same) := by
    cases w₁.files.enrollment with
    | none => exact Prog.keeps_pure ()
    | some pending =>
      exact Prog.keeps_ensure.bind fun _ w' h' =>
        Prog.leads_map.mpr (quiet_library (K.publicKey pending.key) Same w' h')
  refine Prog.leads_bind.mpr ((henrollment w₃ h₃).mono (fun _ w₄ h₄ => ?_) (fun _ => hSame) hSame)
  refine (Prog.leads_pure _).mpr ?_
  obtain ⟨hd, hfiles⟩ := h₄
  have hfiles₁ : w₁.files = w₄.files := h₁.2.trans hfiles.symm
  show Secured K w₄.trace w₄.files ⟨w₁.files.identity, false, 0, w₁.files.enrollment⟩
  rw [hfiles₁]
  refine ⟨hd, fun b hb => ⟨hd.identity b hb, hd.presentable b hb⟩, fun hu => absurd hu Bool.false_ne_true,
    fun p hp => ⟨hd.matched p hp, .inr ⟨p, hp, rfl⟩⟩, fun hnone key hkey => ?_⟩
  -- Without a request on disk the identity is what holds the key.
  refine (hd.kept key hkey).resolve_right ?_
  rintro ⟨p, hp, -⟩
  have hnone' : w₄.files.enrollment = none := hnone
  rw [hnone'] at hp
  cases hp

/-- **The invariant of the machine.** -/
structure Machine.Secured (K : Pki) (past : Past Files Event) (m : Machine) : Prop where
  durable : Durable K past m.files
  session : ∀ s ∈ m.session, Mtls.Secured K past m.files s.2

theorem State.recover_secured (h : Secured K past files memory) :
    Secured K past files memory.recover :=
  ⟨h.toDurable, fun b hb => (by cases hb), fun _ => rfl, h.pending, h.settled⟩

theorem operate_secured (op : Op) (script : List Turn) {m : Machine} (h : m.Secured K past) :
    Machine.Secured K (operate K op script past m).1 (operate K op script past m).2 := by
  unfold operate
  split
  · next config =>
    have hload : (load K config).Leads ⟨m.files, ⟨none, false, 0, none⟩, script, past⟩
        (fun s w' => Secured K w'.trace w'.files s) (fun _ => World.Has (Documents K))
        (World.Has (Documents K)) := load_leads h.durable
    unfold Prog.Leads at hload
    split at hload
    · next heq =>
      rw [heq]
      refine ⟨hload.toDurable, fun s hs => ?_⟩
      cases hs
      exact hload
    · next heq =>
      rw [heq]
      exact ⟨hload, fun s hs => (by cases hs)⟩
    · next heq =>
      rw [heq]
      exact ⟨hload, fun s hs => (by cases hs)⟩
  · next config s hsession =>
    have hkeeps : (ensure K config).Keeps (World.Has (Mtls.Secured K)) := ensure_keeps
    have hensure : World.Has (Mtls.Secured K) _ := Prog.Leads.final
      (hkeeps ⟨m.files, s, script, past⟩ (h.session (config, s) hsession))
    refine ⟨hensure.toDurable, fun s' hs' => ?_⟩
    cases hs'
    exact hensure
  · next config s hsession =>
    refine ⟨h.durable, fun s' hs' => ?_⟩
    cases hs'
    exact State.recover_secured (h.session (config, s) hsession)
  · exact h

theorem operateAll_secured (operations : List (Op × List Turn)) {past : Past Files Event}
    {m : Machine} (h : m.Secured K past) :
    Machine.Secured K (operateAll K operations past m).1 (operateAll K operations past m).2 := by
  induction operations generalizing past m with
  | nil => exact h
  | cons operation rest ih => exact ih (operate_secured operation.1 operation.2 h)

theorem CertificateRun.secured (K : Pki) (r : CertificateRun) :
    (r.machine K).Secured K (r.past K) := by
  refine operateAll_secured r.operations ⟨⟨⟨?_, ?_⟩, ?_, ?_, throughout_nil _⟩, ?_⟩
  · exact fun _ h => (List.not_mem_nil h).elim
  · exact fun _ h => (by cases h)
  · exact fun _ h => (by cases h)
  · exact fun _ h => (by cases h)
  · exact fun _ h => (by cases h)

/-- **The key of a signing request survives.** At every point of every run –
whatever the server answers, whatever fails, and wherever a process is killed
and started again – the key of each request sent is in one of the two
documents until a bundle with another key is published, and it was there
before the request was sent; and the identity on disk, whenever there is one,
is a certificate that matches its key, with the renewal before the expiry. -/
theorem requested_keys_survive (K : Pki) (r : CertificateRun) :
    (r.machine K).files.Safe K (r.past K) ∧
      Throughout (fun past files e => files.Safe K past ∧ e.FromStored K files) (r.past K) :=
  ⟨(r.secured K).durable.toSafe, (r.secured K).durable.steps⟩

end Lariska.Mtls
