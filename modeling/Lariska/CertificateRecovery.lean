import Lariska.CertificateKeys

/-!
# Coming to an identity

Whatever a process has been through, its next call of `ensure` after the
back-off brings it an identity that is valid, provided everything goes well
from then on: no local operation fails, and the server is honest – it returns
the certificate it has issued for a request or says that there is none, and
issues a certificate for a request it has not seen.

Everything going well means a number of turns that are all honest, and
`Going n` says that there are `n` of them left. The lemmas count what each
program takes of them, so that the call is shown to return, not only to be
right when it does. What a process that has an identity already makes of an
enrollment that fails is part of the count: it presents the one it has.
-/

namespace Lariska.Mtls

/-! ## An honest server -/

/-- The certificate can be read, and is valid at this time. -/
def validText (K : Pki) (certificate : String) (now : Int) : Bool :=
  match K.parseCertificate certificate with
  | .ok c => c.validAt now
  | .error _ => false

def Bundle.validAt (K : Pki) (b : Bundle) (now : Int) : Bool := validText K b.certificate now

/-- The response is an issued certificate. -/
structure Response.Delivers (K : Pki) (r : Response) (i : Issued) : Prop where
  success : 200 ≤ r.status ∧ r.status < 300
  bounded : r.body.length ≤ maxSuccessResponseBytes
  decodes : K.readIssued r.body = .ok i

/-- A certificate issued for a request: it is for its key, it is renewed before
it expires, and with its key it makes an identity. -/
structure Issued.For (K : Pki) (csr : String) (i : Issued) : Prop where
  fits : ∃ certificate renewal, K.parseCertificate i.certificate = .ok certificate ∧
    certificate.publicKey = K.requestKey csr ∧ K.parseTime i.renewAfter = .ok renewal ∧
    renewal < certificate.notAfter
  presents : ∀ key, K.publicKey key = .ok (K.requestKey csr) →
    Bundle.Presentable K ⟨key, i.certificate, i.caCertificate, i.renewAfter⟩

/-- **A turn in which all goes well**, of a call with the turns `S` and a server
that has issued for the requests `served`. No certificate of the server expires
in the middle of the call. -/
structure Turn.Honest (K : Pki) (served : String → Prop) (S : Turn → Prop) (t : Turn) : Prop where
  done : t.fate = .done
  generates : ∃ key csr, K.generate t.random = .ok (key, csr) ∧ ¬ served csr
  issues : ∀ csr, ¬ served csr → ∃ i, (t.answer .issue csr).Delivers K i ∧ i.For K csr ∧
    ∀ t, S t → validText K i.certificate t.now = true
  recovers : ∀ csr, ¬ served csr ∧ (t.answer .recover csr).status = 404 ∨
    ∃ i valid, (t.answer .recover csr).Delivers K i ∧ i.For K csr ∧
      ∀ t, S t → validText K i.certificate t.now = valid

/-! ## Turns that all go well -/

section Going

variable {K : Pki} {config : Config} {served : String → Prop} {S : Turn → Prop}
variable {w w' w'' : World} {n : Nat}

/-- So many turns are left at least, and they all go well. -/
structure Going (K : Pki) (served : String → Prop) (S : Turn → Prop) (n : Nat) (w : World) :
    Prop where
  turns : n ≤ w.script.length
  honest : ∀ t ∈ w.script, S t ∧ t.Honest K served S

theorem Going.fewer {m : Nat} (h : Going K served S n w) (hm : m ≤ n) : Going K served S m w :=
  ⟨hm.trans h.turns, h.honest⟩

/-- The documents and the memory are the same, and so many turns are left. -/
structure After (K : Pki) (served : String → Prop) (S : Turn → Prop) (n : Nat) (w w' : World) :
    Prop extends Going K served S n w' where
  files : w'.files = w.files
  memory : w'.self = w.self

theorem After.trans {m : Nat} (h : After K served S m w w') (h' : After K served S n w' w'') :
    After K served S n w w'' :=
  ⟨h'.toGoing, h'.files.trans h.files, h'.memory.trans h.memory⟩

theorem After.refl (h : Going K served S n w) : After K served S n w w := ⟨h, rfl, rfl⟩

/-- The program returns. -/
abbrev Runs {α : Type} (m : Act α) (w : World) (B : α → World → Prop) : Prop :=
  m.Leads w B (fun _ _ => False) (fun _ => False)

/-- Going on after a program that returns. -/
theorem Runs.then {α β : Type} {m : Act α} {f : α → Act β} {A : α → World → Prop}
    {B : β → World → Prop} {E : ApiError → World → Prop} {D : World → Prop} (h : Runs m w A)
    (hf : ∀ a w', A a w' → (f a).Leads w' B E D) : (m >>= f).Leads w B E D :=
  Prog.leads_bind.mpr (h.mono hf (fun _ _ hfalse => hfalse.elim) fun _ hfalse => hfalse.elim)

theorem turn_runs (h : Going K served S (n + 1) w) :
    Runs turn w (fun t w' => (S t ∧ t.Honest K served S) ∧ After K served S n w w') := by
  unfold Runs Prog.Leads turn
  cases hscript : w.script with
  | nil =>
    have hturns := h.turns
    rw [hscript] at hturns
    exact absurd hturns (Nat.not_succ_le_zero n)
  | cons t script =>
    have ht : S t ∧ t.Honest K served S := h.honest t (hscript ▸ List.mem_cons_self)
    dsimp only
    rw [ht.2.done]
    refine ⟨ht, ⟨?_, fun t' ht' => h.honest t' (hscript ▸ List.mem_cons_of_mem t ht')⟩, rfl, rfl⟩
    have hturns := h.turns
    rw [hscript, List.length_cons] at hturns
    exact Nat.le_of_succ_le_succ hturns

theorem step_runs (h : Going K served S (n + 1) w) :
    Runs step w (fun _ w' => After K served S n w w') := by
  refine (turn_runs h).then fun t w' ht => ?_
  rw [ht.1.2.done]
  exact (Prog.leads_pure _).mpr ht.2

theorem exchange_runs (h : Going K served S (n + 1) w) :
    Runs exchange w (fun t w' => (S t ∧ t.Honest K served S) ∧ After K served S n w w') := by
  refine (turn_runs h).then fun t w' ht => ?_
  rw [ht.1.2.done]
  exact (Prog.leads_pure _).mpr ht

theorem clock_runs (h : Going K served S (n + 1) w) :
    Runs clock w (fun now w' => (∃ t, S t ∧ t.now = now) ∧ After K served S n w w') :=
  (turn_runs h).then fun t _ ht => (Prog.leads_pure _).mpr ⟨⟨t, ht.1.1, rfl⟩, ht.2⟩

theorem library_runs {α : Type} {x : Except String α} {a : α} (hx : x = .ok a) :
    Runs (library x) w (fun a' w' => a' = a ∧ w' = w) := by
  rw [hx]
  exact (Prog.leads_pure _).mpr ⟨rfl, rfl⟩

/-! ## Clients -/

/-- Whether there is a bundle that is valid, all through the call. -/
def Steady (K : Pki) (S : Turn → Prop) (valid : Bool) : Option Bundle → Prop
  | none => valid = false
  | some b => (∃ c, K.parseCertificate b.certificate = .ok c) ∧
      ∀ t, S t → b.validAt K t.now = valid

theorem validNow_runs {b : Bundle} {valid : Bool} (h : Going K served S (n + 1) w)
    (hs : Steady K S valid (some b)) :
    Runs (validNow K b) w (fun v w' => v = valid ∧ After K served S n w w') := by
  obtain ⟨⟨c, hc⟩, hvalid⟩ := hs
  refine (library_runs hc).then fun c' w₁ hc' => ?_
  obtain ⟨rfl, rfl⟩ := hc'
  refine (clock_runs h).then fun now w₂ hnow => (Prog.leads_pure _).mpr ⟨?_, hnow.2⟩
  obtain ⟨t, ht, rfl⟩ := hnow.1
  rw [← hvalid t ht]
  show c'.validAt t.now = validText K b.certificate t.now
  unfold validText
  rw [hc]

theorem usableBundle_runs {bundle : Option Bundle} {valid : Bool}
    (h : Going K served S (n + 1) w) (hs : Steady K S valid bundle) :
    Runs (usableBundle K bundle) w (fun v w' => v = valid ∧ After K served S n w w') := by
  cases bundle with
  | none =>
    exact (Prog.leads_pure _).mpr ⟨Eq.symm hs, After.refl (h.fewer (Nat.le_succ n))⟩
  | some b =>
    exact Prog.leads_bind.mpr (Prog.leads_attempt.mpr ((validNow_runs h hs).mono
      (fun v w' hv => (Prog.leads_pure v).mpr hv) (fun _ _ hfalse => hfalse.elim)
      fun _ hfalse => hfalse))

theorem build_runs {bundle : Option Bundle} (h : Going K served S (n + 2) w)
    (hb : ∀ b ∈ bundle, b.Presentable K) :
    Runs (build K config bundle) w (fun c w' => c.identity = bundle ∧ After K served S n w w') := by
  have hauthority : Runs (readAuthority config) w (fun _ w' => After K served S (n + 1) w w') := by
    refine Prog.leads_ite (fun _ => ?_) fun _ => step_runs h
    exact (Prog.leads_pure _).mpr (After.refl (h.fewer (Nat.le_succ _)))
  refine hauthority.then fun _ w₁ h₁ => ?_
  have hidentity : Runs (useIdentity K bundle) w₁ (fun _ w' => w' = w₁) := by
    cases bundle with
    | none => exact (Prog.leads_pure _).mpr rfl
    | some b => exact (library_runs (hb b rfl)).imp fun _ _ hw => hw.2
  refine hidentity.then fun _ w₂ hw => ?_
  subst hw
  exact (step_runs h₁.toGoing).then fun _ w₃ h₃ => (Prog.leads_pure _).mpr ⟨rfl, h₁.trans h₃⟩

/-- The client presents the bundle in memory when it is valid. -/
theorem client_runs {valid : Bool} (h : Going K served S (n + 3) w)
    (hs : Steady K S valid w.self.bundle) (hb : ∀ b ∈ w.self.bundle, b.Presentable K) :
    Runs (client K config) w (fun c w' =>
      c.identity = (if valid then w.self.bundle else none) ∧ After K served S n w w') := by
  refine Prog.leads_bind.mpr (Prog.leads_get.mpr ?_)
  refine (usableBundle_runs h hs).then fun v w₁ hv => ?_
  obtain ⟨rfl, h₁⟩ := hv
  have hpresented : ∀ b ∈ (if v then w.self.bundle else none), b.Presentable K := by
    cases v with
    | true => exact hb
    | false => exact fun b hmem => (by cases hmem)
  exact (build_runs h₁.toGoing hpresented).imp fun c w' hc => ⟨hc.1, h₁.trans hc.2⟩

/-! ## Enrollment -/

theorem requestCertificate_runs {route : Route} {request : Pending} {valid : Bool}
    (h : Going K served S (n + 4) w) (hs : Steady K S valid w.self.bundle)
    (hb : ∀ b ∈ w.self.bundle, b.Presentable K) :
    Runs (requestCertificate K config route request) w (fun r w' =>
      (∃ t : Turn, (S t ∧ t.Honest K served S) ∧ r = t.answer route request.csr) ∧
        After K served S n w w') := by
  refine (client_runs h hs hb).then fun _ w₁ h₁ => Prog.leads_bind.mpr (Prog.leads_modify.mpr ?_)
  have hsent : After K served S (n + 1) w (w₁.happen (.sent route request)) :=
    ⟨⟨h₁.2.turns, h₁.2.honest⟩, h₁.2.files, h₁.2.memory⟩
  exact (exchange_runs hsent.toGoing).then fun t w₂ ht =>
    (Prog.leads_pure _).mpr ⟨⟨t, ht.1, rfl⟩, hsent.trans ht.2⟩

theorem classifyResponse_runs {r : Response} {i : Issued} (h : Going K served S (n + 1) w)
    (hd : r.Delivers K i) :
    Runs (classifyResponse K r) w (fun i' w' => i' = i ∧ After K served S n w w') := by
  unfold classifyResponse
  rw [if_pos hd.success]
  have hbody : Runs (readBody r maxSuccessResponseBytes) w (fun body w' =>
      body = some r.body ∧ After K served S n w w') := by
    refine (exchange_runs h).then fun _ w' ht => (Prog.leads_pure _).mpr ⟨?_, ht.2⟩
    exact if_neg (Nat.not_lt.mpr hd.bounded)
  refine hbody.then fun body w' hbody => ?_
  obtain ⟨rfl, h'⟩ := hbody
  dsimp only
  rw [hd.decodes]
  exact (Prog.leads_pure _).mpr ⟨rfl, h'⟩

/-- What was issued for a request passes `validate` with the key of it. -/
theorem Issued.For.validate_eq {i : Issued} {request : Pending} (h : i.For K request.csr)
    (hm : request.Matched K) :
    validate K ⟨request.key, i.certificate, i.caCertificate, i.renewAfter⟩ = .ok () := by
  obtain ⟨certificate, renewal, hc, hkey, ht, hlt⟩ := h.fits
  have hm' : K.publicKey request.key = .ok certificate.publicKey := hm.trans (hkey ▸ rfl)
  have hlt' : ¬ certificate.notAfter ≤ renewal := not_le.mpr hlt
  simp [validate, hm', hc, ht, hlt', Except.mapError, bind, Except.bind]

/-- The enrollment is over, with a client that presents a valid identity. -/
def Presents (K : Pki) (S : Turn → Prop) (c : Client) (_ : World) : Prop :=
  ∃ b, c.identity = some b ∧ ∀ t, S t → b.validAt K t.now = true

/-- The enrollment has failed, which it does not when it is `sound`, and the
bundle in memory is still the same. -/
structure Deferred (K : Pki) (served : String → Prop) (S : Turn → Prop) (n : Nat) (sound : Prop)
    (bundle : Option Bundle) (e : ApiError) (w : World) : Prop extends Going K served S n w where
  unsound : ¬ sound
  admitted : e ≠ .auth
  bundle_eq : w.self.bundle = bundle

variable {bundle : Option Bundle} {valid : Bool} {request : Pending}

theorem persistNamed_runs {e : Event} (h : Going K served S (n + 3) w) :
    Runs (persistNamed e) w (fun _ w' => Going K served S n w' ∧ w'.files = e.apply w.files ∧
      w'.self = w.self) := by
  refine (step_runs h).then fun _ w₁ h₁ => (step_runs h₁.toGoing).then fun _ w₂ h₂ => ?_
  have hw : After K served S (n + 1) w w₂ := h₁.trans h₂
  refine Prog.leads_bind.mpr (Prog.leads_modify.mpr ?_)
  have hgoing : Going K served S (n + 1) (w₂.happen e) := ⟨hw.turns, hw.honest⟩
  refine (step_runs hgoing).imp fun _ w₃ h₃ => ⟨h₃.toGoing, ?_, h₃.memory.trans hw.memory⟩
  rw [h₃.files, ← hw.files]
  rfl

/-- **Publishing what was issued for the request** succeeds when it is valid and
the request is on disk. -/
theorem publish_leads {i : Issued} (h : Going K served S (n + 8) w) (hm : request.Matched K)
    (hi : i.For K request.csr) (hv : ∀ t, S t → validText K i.certificate t.now = valid) :
    (publish K config request i).Leads w (Presents K S)
      (Deferred K served S n (valid = true ∧ w.files.enrollment ≠ none) w.self.bundle)
      (fun _ => False) := by
  unfold publish
  extract_lets published
  have hsteady : Steady K S valid (some published) := by
    obtain ⟨certificate, renewal, hc, -⟩ := hi.fits
    exact ⟨⟨certificate, hc⟩, hv⟩
  have hvalidate : validate K published = .ok () := hi.validate_eq hm
  rw [hvalidate]
  refine Prog.leads_bind.mpr ((Prog.leads_pure _).mpr ?_)
  refine (validNow_runs h hsteady).then fun v w₁ hv₁ => ?_
  obtain ⟨rfl, h₁⟩ := hv₁
  refine Prog.leads_bind.mpr (Prog.leads_ensure.mpr ⟨fun hvalid => ?_, fun hvalid => ?_⟩)
  · have hpresentable : ∀ b ∈ some published, b.Presentable K := fun b hb => by
      cases hb
      exact hi.presents request.key hm
    refine (build_runs h₁.toGoing hpresentable).then fun c w₂ hc => ?_
    obtain ⟨hc, h₂⟩ := hc
    refine (persistNamed_runs h₂.toGoing).then fun _ w₃ h₃ => ?_
    obtain ⟨h₃, hfiles, hself⟩ := h₃
    have henrollment : w₃.files.enrollment = w.files.enrollment := by
      rw [hfiles, h₂.files, h₁.files]
      rfl
    have hbundle : w₃.self.bundle = w.self.bundle := by
      rw [hself, h₂.memory, h₁.memory]
    refine Prog.leads_bind.mpr ((step_runs h₃).then fun _ w₄ h₄ => ?_)
    refine Prog.leads_bind.mpr (Prog.leads_get.mpr (Prog.leads_bind.mpr (Prog.leads_ensure.mpr
      ⟨fun _ => ?_, fun hmissing => ?_⟩)))
    · refine Prog.leads_modify.mpr ?_
      have h₅ : Going K served S 1 (w₄.happen .removedPending) :=
        ⟨(Nat.le_add_left 1 n).trans h₄.turns, h₄.honest⟩
      refine (step_runs h₅).then fun _ w₆ _ => ?_
      exact Prog.leads_bind.mpr (Prog.leads_modify.mpr
        ((Prog.leads_pure _).mpr ⟨published, hc, fun t ht => (hv t ht).trans hvalid⟩))
    · -- The document of the request is not there.
      refine ⟨h₄.fewer (Nat.le_succ n), fun hsound => hmissing ?_, by simp [fatal], ?_⟩
      · rw [h₄.files, henrollment]
        exact hsound.2
      · rw [h₄.memory, hbundle]
  · exact ⟨h₁.fewer (by omega), fun hsound => hvalid hsound.1, by simp [fatal],
      congrArg State.bundle h₁.memory⟩

/-- A request that was not served is issued for. -/
theorem issueNew_leads (h : Going K served S (n + 13) w) (hs : Steady K S valid w.self.bundle)
    (hb : ∀ b ∈ w.self.bundle, b.Presentable K) (hm : request.Matched K)
    (hnew : ¬ served request.csr) :
    (issueNew K config request).Leads w (Presents K S)
      (Deferred K served S n (w.files.enrollment ≠ none) w.self.bundle) (fun _ => False) := by
  refine (requestCertificate_runs (n := n + 9) h hs hb).then fun r w₁ hr => ?_
  obtain ⟨⟨t, ⟨-, ht⟩, rfl⟩, h₁⟩ := hr
  obtain ⟨i, hd, hi, hvalid⟩ := ht.issues request.csr hnew
  refine Prog.leads_bind.mpr (Prog.leads_get.mpr (Prog.leads_ite (fun hmissing => ?_) fun _ => ?_))
  · have hsuccess := hd.success.2
    rw [hmissing.1] at hsuccess
    exact absurd hsuccess (by decide)
  · refine (classifyResponse_runs (n := n + 8) h₁.toGoing hd).then fun i' w₂ hi' => ?_
    obtain ⟨rfl, h₂⟩ := hi'
    have hw := h₁.trans h₂
    refine (publish_leads h₂.toGoing hm hi hvalid).mono (fun _ _ hp => hp) (fun e w₃ he => ?_)
      fun _ hfalse => hfalse
    refine ⟨he.toGoing, fun hsound => he.unsound ⟨rfl, ?_⟩, he.admitted,
      he.bundle_eq.trans (congrArg State.bundle hw.memory)⟩
    rw [hw.files]
    exact hsound

theorem newPending_runs (h : Going K served S (n + 4) w) :
    Runs (newPending K config) w (fun request w' => request.Matched K ∧ ¬ served request.csr ∧
      w'.files.enrollment ≠ none ∧ w'.self.bundle = w.self.bundle ∧ Going K served S n w') := by
  refine (turn_runs h).then fun t w₁ ht => ?_
  obtain ⟨key, csr, hgenerate, hnew⟩ := ht.1.2.generates
  refine (library_runs hgenerate).then fun pair w₂ hpair => ?_
  obtain ⟨rfl, rfl⟩ := hpair
  refine (persistNamed_runs ht.2.toGoing).then fun _ w₃ h₃ => ?_
  obtain ⟨hgoing, hfiles, hself⟩ := h₃
  refine Prog.leads_bind.mpr (Prog.leads_modify.mpr ((Prog.leads_pure _).mpr
    ⟨K.generate_key _ _ _ hgenerate, hnew, ?_, ?_, ⟨hgoing.turns, hgoing.honest⟩⟩))
  · show w₃.files.enrollment ≠ none
    rw [hfiles]
    exact Option.some_ne_none _
  · show w₃.self.bundle = w.self.bundle
    rw [hself, ht.2.memory]

/-- What the process has asked for already can still be had: its request is on
disk, and no certificate that has expired was issued for it. -/
def Recoverable (K : Pki) (S : Turn → Prop) (enrollment : Option Pending) (request : Pending) :
    Prop :=
  enrollment ≠ none ∧ ∀ t, S t → ∀ i, (t.answer .recover request.csr).Delivers K i →
    ∀ t', S t' → validText K i.certificate t'.now = true

variable (config) in
theorem enroll_leads (h : Going K served S (n + 17) w) (hs : Steady K S valid w.self.bundle)
    (hb : ∀ b ∈ w.self.bundle, b.Presentable K) (hm : ∀ request ∈ w.self.pending, request.Matched K) :
    (enroll K config).Leads w (Presents K S)
      (Deferred K served S n
        (∀ request ∈ w.self.pending, Recoverable K S w.files.enrollment request)
        w.self.bundle) (fun _ => False) := by
  refine Prog.leads_bind.mpr (Prog.leads_get.mpr ?_)
  cases hp : w.self.pending with
  | none =>
    refine (newPending_runs (n := n + 13) h).then fun request w₁ h₁ => ?_
    obtain ⟨hmatched, hnew, hstored, hbundle, hgoing⟩ := h₁
    refine (issueNew_leads hgoing (hbundle ▸ hs) (hbundle ▸ hb) hmatched hnew).mono
      (fun _ _ hp => hp) (fun e w₂ he => absurd hstored he.unsound) fun _ hfalse => hfalse
  | some request =>
    have hmatched : request.Matched K := hm request hp
    refine (requestCertificate_runs (n := n + 13) h hs hb).then fun r w₁ hr => ?_
    obtain ⟨⟨t, ⟨hS, ht⟩, rfl⟩, h₁⟩ := hr
    have hbundle : w₁.self.bundle = w.self.bundle := congrArg State.bundle h₁.memory
    refine Prog.leads_ite (fun hmissing => ?_) fun hfound => ?_
    · have hnew : ¬ served request.csr := by
        obtain ⟨hnew, -⟩ | ⟨i, _, hd, -⟩ := ht.recovers request.csr
        · exact hnew
        · have hsuccess := hd.success.2
          rw [hmissing] at hsuccess
          exact absurd hsuccess (by decide)
      refine (issueNew_leads h₁.toGoing (hbundle ▸ hs) (hbundle ▸ hb) hmatched hnew).mono
        (fun _ _ hp => hp) (fun e w₂ he => ⟨he.toGoing, fun hsound => he.unsound ?_, he.admitted,
          he.bundle_eq.trans hbundle⟩) fun _ hfalse => hfalse
      rw [h₁.files]
      exact (hsound request rfl).1
    · obtain ⟨-, h404⟩ | ⟨i, v, hd, hi, hv⟩ := ht.recovers request.csr
      · exact absurd h404 hfound
      refine (classifyResponse_runs (n := n + 12) h₁.toGoing hd).then fun i' w₂ hi' => ?_
      obtain ⟨rfl, h₂⟩ := hi'
      have hw := h₁.trans h₂
      refine (publish_leads (n := n + 4) h₂.toGoing hmatched hi hv).mono (fun _ _ hp => hp)
        (fun e w₃ he => ⟨he.fewer (by omega), fun hsound => he.unsound ?_, he.admitted,
          he.bundle_eq.trans (congrArg State.bundle hw.memory)⟩) fun _ hfalse => hfalse
      obtain ⟨hdisk, hlive⟩ := hsound request rfl
      rw [hw.files]
      refine ⟨?_, hdisk⟩
      exact (hv t hS).symm.trans (hlive t hS i' hd t hS)

/-! ## The call of `ensure` -/

/-- A renewal is due at once when there is no valid bundle. -/
theorem renewalDue_runs {now : Int} (h : Going K served S (n + 1) w)
    (hs : Steady K S valid bundle) (hb : ∀ b ∈ bundle, b.Sound K) :
    Runs (renewalDue K now bundle) w (fun due w' => (due = false → valid = true) ∧
      After K served S n w w') := by
  cases bundle with
  | none =>
    exact (Prog.leads_pure _).mpr ⟨fun hdue => absurd hdue (by decide),
      After.refl (h.fewer (Nat.le_succ n))⟩
  | some b =>
    refine (validNow_runs h hs).then fun v w₁ hv => ?_
    obtain ⟨rfl, h₁⟩ := hv
    refine Prog.leads_ite (fun hvalid => ?_) fun _ =>
      (Prog.leads_pure _).mpr ⟨fun hdue => absurd hdue (by decide), h₁⟩
    obtain ⟨_, renewal, _, _, htime, _⟩ := hb b rfl
    refine (library_runs htime).then fun renewal' w₂ hw => (Prog.leads_pure _).mpr ⟨fun _ => hvalid, ?_⟩
    rw [hw.2]
    exact h₁

/-- A valid bundle that is presented. -/
theorem presents_bundle {c : Client} (hs : Steady K S valid bundle) (hvalid : valid = true)
    (hc : c.identity = if valid then bundle else none) : Presents K S c w := by
  subst hvalid
  cases bundle with
  | none => exact Bool.noConfusion (show true = false from hs)
  | some b => exact ⟨b, hc, hs.2⟩

/-- **The call returns, with a valid identity.** -/
theorem ensure_runs (h : Going K served S 23 w) (hw : Secured K w.trace w.files w.self)
    (hhttps : config.https = true) (hopen : w.self.unavailable = false)
    (hs : Steady K S valid w.self.bundle) (hbackoff : ∀ t, S t → w.self.retryAt ≤ t.now)
    (hlive : valid = true ∨
      ∀ request ∈ w.self.pending, Recoverable K S w.files.enrollment request) :
    Runs (ensure K config) w (Presents K S) := by
  have hpresentable : ∀ b ∈ w.self.bundle, b.Presentable K := fun b hb => (hw.loaded b hb).2
  refine (clock_runs (n := 22) h).then fun now w₁ hnow => Prog.leads_bind.mpr (Prog.leads_get.mpr ?_)
  obtain ⟨⟨t, hS, rfl⟩, h₁⟩ := hnow
  rw [h₁.memory]
  refine Prog.leads_ite (fun hclosed => ?_) fun _ => ?_
  · rw [hhttps, hopen] at hclosed
    exact absurd hclosed (by decide)
  refine (renewalDue_runs (n := 21) h₁.toGoing hs fun b hb => (hw.loaded b hb).1).then
    fun due w₂ h₂ => ?_
  obtain ⟨hdue, h₂⟩ := h₂
  have hw₂ := h₁.trans h₂
  refine Prog.leads_ite (fun hnot => ?_) fun _ => ?_
  · -- Nothing is due: the bundle is presented.
    refine (client_runs (n := 0) (h₂.fewer (by omega))
      (show Steady K S valid _ from ?_) ?_).imp fun c _ hc => presents_bundle hs (hdue hnot) ?_
    · rw [hw₂.memory]
      exact hs
    · rw [hw₂.memory]
      exact hpresentable
    · rw [← hw₂.memory]
      exact hc.1
  refine (usableBundle_runs (n := 20) h₂.toGoing hs).then fun usable w₃ h₃ => ?_
  obtain ⟨rfl, h₃⟩ := h₃
  have hw₃ := hw₂.trans h₃
  refine Prog.leads_ite (fun hearly => absurd hearly (not_lt.mpr (hbackoff t hS))) fun _ => ?_
  refine Prog.leads_bind.mpr (Prog.leads_modify.mpr ?_)
  have hgoing : Going K served S (3 + 17)
      { w₃ with self := { w₃.self with retryAt := t.now + 300 } } := ⟨h₃.turns, h₃.honest⟩
  have henroll := enroll_leads config hgoing
    (show Steady K S usable w₃.self.bundle by rw [hw₃.memory]; exact hs)
    (by rw [hw₃.memory]; exact hpresentable)
    (by rw [hw₃.memory]; exact fun request hp => (hw.pending request hp).1)
  refine Prog.leads_bind.mpr (Prog.leads_attempt.mpr (henroll.mono
    (fun c w₄ hc => (Prog.leads_pure c).mpr hc) (fun e w₄ he => ?_) fun _ hfalse => hfalse))
  -- The enrollment has failed, so there is a bundle to fall back on.
  have husable : usable = true := by
    refine hlive.resolve_right fun hsound => he.unsound ?_
    intro request hp
    have hp' : request ∈ w.self.pending := hw₃.memory ▸ hp
    have hrecover := hsound request hp'
    rw [← hw₃.files] at hrecover
    exact hrecover
  have hbundle : w₄.self.bundle = w.self.bundle :=
    he.bundle_eq.trans (show w₃.self.bundle = w.self.bundle by rw [hw₃.memory])
  have hfallback : Runs (client K config) w₄ (Presents K S) := by
    refine (client_runs (n := 0) he.toGoing (show Steady K S usable _ from ?_) ?_).imp
      fun c _ hc => presents_bundle hs husable ?_
    · rw [hbundle]
      exact hs
    · rw [hbundle]
      exact hpresentable
    · rw [← hbundle]
      exact hc.1
  cases e with
  | auth => exact absurd rfl he.admitted
  | _ =>
    refine Prog.leads_ite (fun _ => hfallback) fun hunusable => absurd husable hunusable

end Going

/-- A program that runs returns. -/
theorem Runs.returns {α : Type} {m : Act α} {w : World} {B : α → World → Prop} (h : Runs m w B) :
    ∃ a w', m w = (.ok a, w') ∧ B a w' := by
  unfold Runs Prog.Leads at h
  split at h
  · next a w' heq => exact ⟨a, w', heq, h⟩
  · exact h.elim
  · exact h.elim

/-! ## The next call of a process -/

/-- The turns of a call, the next of a process that has come to a state: they
all go well, they come after the back-off, and the certificate in memory, if
there is one, does not expire in the middle. -/
structure Resumes (K : Pki) (served : String → Prop) (s : State) (script : List Turn) : Prop where
  long : 23 ≤ script.length
  honest : ∀ t ∈ script, t.Honest K served (· ∈ script)
  backoff : ∀ t ∈ script, s.retryAt ≤ t.now
  steady : ∀ b ∈ s.bundle, ∃ valid, ∀ t ∈ script, b.validAt K t.now = valid

/-- The identity in memory is valid all through the call, or what the process
has asked for can still be had. -/
def Hopeful (K : Pki) (s : State) (enrollment : Option Pending) (script : List Turn) : Prop :=
  (∃ b ∈ s.bundle, ∀ t ∈ script, b.validAt K t.now = true) ∨
    ∀ request ∈ s.pending, Recoverable K (· ∈ script) enrollment request

/-- **The next call brings an identity.** In every state a process has come to,
the next call after the back-off that goes well returns: without an identity
where the server has said before that it issues none, and else, unless what
the process has asked for cannot be had any more, with one that is valid. -/
theorem next_ensure_identifies (K : Pki) (r : CertificateRun) {config : Config} {s : State}
    (hsession : (r.machine K).session = some (config, s)) (hhttps : config.https = true)
    {served : String → Prop} {script : List Turn} (hresumes : Resumes K served s script)
    (hhopeful : s.unavailable = true ∨ Hopeful K s (r.machine K).files.enrollment script) :
    ∃ c w, ensure K config ⟨(r.machine K).files, s, script, r.past K⟩ = (.ok c, w) ∧
      (if s.unavailable = true then c.identity = none
        else ∃ b, c.identity = some b ∧ ∀ t ∈ script, b.validAt K t.now = true) := by
  have hsecured : Secured K (r.past K) (r.machine K).files s :=
    (r.secured K).session (config, s) hsession
  have hgoing : Going K served (· ∈ script) 23 ⟨(r.machine K).files, s, script, r.past K⟩ :=
    ⟨hresumes.long, fun t ht => ⟨ht, hresumes.honest t ht⟩⟩
  by_cases hu : s.unavailable = true
  · -- The server issues no certificates, as far as the process knows.
    have hnone : s.bundle = none := hsecured.alone hu
    have hclient : Runs (ensure K config) ⟨(r.machine K).files, s, script, r.past K⟩
        (fun c _ => c.identity = none) := by
      refine (clock_runs (n := 22) hgoing).then fun now w₁ hnow =>
        Prog.leads_bind.mpr (Prog.leads_get.mpr (Prog.leads_ite (fun _ => ?_) fun hopen => ?_))
      · refine (client_runs (n := 0) (hnow.2.fewer (by omega))
          (show Steady K (· ∈ script) false _ from ?_) ?_).imp fun c _ hc => hc.1
        · rw [hnow.2.memory, hnone]
          rfl
        · rw [hnow.2.memory, hnone]
          exact fun b hb => (by cases hb)
      · rw [hnow.2.memory] at hopen
        exact absurd (.inr hu) hopen
    obtain ⟨c, w, heq, hc⟩ := hclient.returns
    exact ⟨c, w, heq, by rw [if_pos hu]; exact hc⟩
  · have hopen : s.unavailable = false := Bool.not_eq_true _ ▸ hu
    obtain ⟨valid, hsteady, hlive⟩ : ∃ valid, Steady K (· ∈ script) valid s.bundle ∧
        (valid = true ∨ ∀ request ∈ s.pending,
          Recoverable K (· ∈ script) (r.machine K).files.enrollment request) := by
      have hhopeful := hhopeful.resolve_left hu
      cases hb : s.bundle with
      | none =>
        refine ⟨false, rfl, .inr (hhopeful.resolve_left ?_)⟩
        rintro ⟨b, hmem, -⟩
        rw [hb] at hmem
        cases hmem
      | some b =>
        obtain ⟨valid, hvalid⟩ := hresumes.steady b hb
        obtain ⟨certificate, _, hc, -⟩ := (hsecured.loaded b hb).1
        refine ⟨valid, ⟨⟨certificate, hc⟩, hvalid⟩, hhopeful.imp_left ?_⟩
        rintro ⟨b', hmem, hvalid'⟩
        rw [hb] at hmem
        cases hmem
        have hlong := hresumes.long
        obtain ⟨t, ht⟩ : ∃ t, t ∈ script := List.exists_mem_of_length_pos (by omega)
        exact (hvalid t ht).symm.trans (hvalid' t ht)
    obtain ⟨c, w, heq, b, hc, hvalid⟩ :=
      (ensure_runs hgoing hsecured hhttps hopen hsteady hresumes.backoff hlive).returns
    exact ⟨c, w, heq, by rw [if_neg hu]; exact ⟨b, hc, hvalid⟩⟩

/-! ## A server that has issued nothing, and one that has -/

namespace Example

/-- One key pair for each random byte, and one certificate that fits them all. -/
def pki : Pki where
  publicKey _ := .ok [7]
  generate seed := .ok ("key " ++ toString seed, "request " ++ toString seed)
  requestKey _ := [7]
  generate_key _ _ _ _ := rfl
  parseCertificate _ := .ok ⟨[7], 0, 1000000⟩
  parseTime _ := .ok 500000
  identity _ := .ok ()
  readIssued _ := .ok ⟨"certificate", "authority", "1970-01-06T18:53:20Z"⟩
  fromUtf8Lossy _ := ""

def config : Config := ⟨"https://server", none⟩

def issued : Response := ⟨200, "200 OK", none, []⟩

def missing : Response := ⟨404, "404 Not Found", none, []⟩

/-- A turn at this time; the server has issued for the first request only. -/
def turnAt (now : Int) : Turn where
  now := now
  fate := .done
  detail := ""
  transient := true
  random := [2]
  answer
    | .issue, _ => issued
    | .recover, csr => if csr = "request [1]" then issued else missing

/-- A turn in which the first request is made, and the server says that it
issues no certificates. -/
def refusing : Turn := { turnAt 1000 with random := [1], answer := fun _ _ => missing }

/-- A turn in which the first request is made. -/
def first : Turn := { turnAt 1000 with random := [1] }

def served (csr : String) : Prop := csr = "request [1]"

instance : DecidablePred served := fun csr => inferInstanceAs (Decidable (csr = "request [1]"))

/-- The call after the back-off. -/
def later : List Turn := List.replicate 23 (turnAt 2000)

theorem issued_delivers : issued.Delivers pki ⟨"certificate", "authority", "1970-01-06T18:53:20Z"⟩ :=
  ⟨by decide, by decide, rfl⟩

theorem later_honest (t : Turn) (ht : t ∈ later) : t.Honest pki served (· ∈ later) := by
  have hvalid : ∀ t ∈ later, validText pki "certificate" t.now = true := by
    intro t ht
    rw [List.eq_of_mem_replicate ht]
    decide
  have hfor : ∀ csr, Issued.For pki csr ⟨"certificate", "authority", "1970-01-06T18:53:20Z"⟩ :=
    fun _ => ⟨⟨_, _, rfl, rfl, rfl, by decide⟩, fun _ _ => rfl⟩
  rw [List.eq_of_mem_replicate ht]
  refine ⟨rfl, ⟨_, _, rfl, by decide⟩, fun csr _ => ⟨_, issued_delivers, hfor csr, hvalid⟩,
    fun csr => ?_⟩
  by_cases hserved : csr = "request [1]"
  · refine .inr ⟨_, true, ?_, hfor csr, hvalid⟩
    show (if csr = "request [1]" then issued else missing).Delivers pki _
    rw [if_pos hserved]
    exact issued_delivers
  · refine .inl ⟨hserved, ?_⟩
    show (if csr = "request [1]" then issued else missing).status = 404
    rw [if_neg hserved]
    rfl

/-- The server has said that it issues no certificates. -/
def declined : CertificateRun where
  operations := [(.load config, [first, first]), (.ensure, List.replicate 23 refusing)]

/-- The answer to the first request is lost, and the process started again. -/
def answerLost : CertificateRun where
  operations := [(.load config, [first, first]),
    (.ensure, List.replicate 7 first ++ [{ first with fate := .failed true }]),
    (.load config, [turnAt 2000, turnAt 2000])]

end Example

open Example

/-- The call after the back-off goes well. -/
theorem later_resumes {pending : Option Pending} {unavailable : Bool} {retryAt : Int}
    (hretry : retryAt ≤ 2000) :
    Resumes pki served ⟨none, unavailable, retryAt, pending⟩ later where
  long := (List.length_replicate (n := 23) (a := turnAt 2000)).ge
  honest := later_honest
  backoff t ht := by
    rw [List.eq_of_mem_replicate ht]
    exact hretry
  steady b hb := by cases hb

/-- **A process that was told that no certificates are issued asks for none**:
the next call returns a client without an identity, though the server would
issue one now. -/
theorem declined_without_identity :
    ∃ s, (declined.machine pki).session = some (Example.config, s) ∧
      Resumes pki served s later ∧
      ∃ w, ensure pki Example.config ⟨(declined.machine pki).files, s, later, declined.past pki⟩
        = (.ok ⟨none⟩, w) :=
  ⟨⟨none, true, 1300, some ⟨"key [1]", "request [1]", "https://server"⟩⟩, rfl,
    later_resumes (by decide), _, rfl⟩

/-- A request of which the answer was lost is looked up. -/
theorem lost_answer_recovered :
    ∃ s, (answerLost.machine pki).session = some (Example.config, s) ∧ s.unavailable = false ∧
      ∃ c w, ensure pki Example.config
          ⟨(answerLost.machine pki).files, s, later, answerLost.past pki⟩ = (.ok c, w) ∧
        (if s.unavailable = true then c.identity = none
          else ∃ b, c.identity = some b ∧ ∀ t ∈ later, b.validAt pki t.now = true) := by
  refine ⟨⟨none, false, 0, some ⟨"key [1]", "request [1]", "https://server"⟩⟩, rfl, rfl, ?_⟩
  refine next_ensure_identifies pki answerLost rfl (by decide) (later_resumes (by decide))
    (.inr (.inr fun request _ => ⟨Option.some_ne_none _, fun t _ i hd t' ht' => ?_⟩))
  rw [List.eq_of_mem_replicate ht']
  cases hd.decodes
  decide

end Lariska.Mtls
