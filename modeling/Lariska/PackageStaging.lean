import Lariska.QueueRefusals

/-!
# Staging a package

`queue_update` checks the package while it arrives: a running counter against
three limits, and a running digest. What it publishes is the body the server
sent, whole, however it was cut, and it publishes exactly when that body is the
signed one and every other step succeeds. Whatever else happens, its destructor
removes what it has staged – or fails to, which nobody is told.
-/

namespace Lariska.Endpoint

open Prog (lift need ensure attempt guarded)

variable (P : Platform) (W : Web)

/-! ## The call in parts -/

/-- `queue_update` before it makes its directory: the base URL and the nonce. -/
def prepare (offer : Offer) : Act (String × String) := do
  verifyManifest P offer.config offer.signed
  let base ← library (W.parse offer.serverUrl)
  let path := offer.url.toList
  refuse (path.head? = some '/' ∧ path.take 2 ≠ ['/', '/'] ∧ '#' ∉ path ∧ '?' ∉ path ∧ '\\' ∉ path)
    "update download must be an absolute API path without query or fragment"
  let parsed ← library (W.join base offer.url)
  refuse (W.origin parsed = W.origin base) "update URL changed server origin"
  reapConsumedRequest
  let t ← step
  let nonce := encodeHex t.random.toList
  discard step
  happen .looked
  let w ← Prog.get
  if w.station.shared.incoming ≠ [] then do
    happen .refused
    Prog.fail "a native update request is already queued"
  else pure (base, nonce)

/-- `stage` up to the first chunk: the chunks of the response. -/
def request (offer : Offer) (base nonce : String) : Act (List Bytes) := do
  discard step
  perform (.received nonce [])
  let t ← stepOr (.detailed "package download failed: ")
  refuse (W.origin t.response.url = W.origin base)
    "package download redirected outside the configured server origin"
  refuse (200 ≤ t.response.status ∧ t.response.status < 300)
    (.detailed "package download failed: HTTP " t.response.statusLine)
  refuse (∀ length ∈ t.response.contentLength, length = offer.signed.manifest.sizeBytes)
    "HTTP Content-Length does not match signed package size"
  pure t.response.chunks

/-- `stage` once the package is there. -/
def publish (offer : Offer) (nonce : String) : Act Unit := do
  discard (stepOr (.detailed "cannot fsync package: "))
  perform (.wroteManifest nonce (signedJson offer.signed))
  discard step
  discard step
  let now ← unixNow
  perform (.published ⟨nonce, offer.signed.manifest.version, offer.signed.manifest.packageKind, now⟩)
  discard step
  discard step

/-- `receive` without its checks. -/
def collect (name : String) : List Bytes → Act Unit
  | [] => do
    let _ ← stepOr (.detailed "interrupted package download: ")
    pure ()
  | chunk :: chunks => do
    let _ ← stepOr (.detailed "interrupted package download: ")
    let _ ← stepOr (.detailed "cannot stage package: ")
    happen (.received name chunk)
    collect name chunks

/-- **The steps of `queue_update` but for the checks of the package**, with the
nonce and the body of the response. -/
def otherSteps (offer : Offer) : Act (String × Bytes) := do
  let (base, nonce) ← prepare P W offer
  perform (.madeDir nonce)
  let chunks ← request W offer base nonce
  collect nonce chunks
  publish offer nonce
  pure (nonce, chunks.flatten)

theorem stage_eq (offer : Offer) (base nonce : String) :
    stage P W offer base nonce = request W offer base nonce >>= fun chunks =>
      receive offer nonce [] chunks >>= fun package => (do
        refuse (package.length = offer.signed.manifest.sizeBytes)
          "interrupted package download: length differs from signed size"
        refuse (P.sha256 package = offer.signed.manifest.sha256)
          "streamed package SHA-256 differs from signed manifest"
        publish offer nonce) := by
  unfold stage request
  simp only [Prog.bind_assoc, Prog.pure_bind]
  rfl

theorem queueUpdate_eq (offer : Offer) :
    queueUpdate P W offer = prepare P W offer >>= fun (base, nonce) =>
      perform (.madeDir nonce) >>= fun _ =>
        guarded (dropStaging nonce) (stage P W offer base nonce) >>= fun _ => pure nonce := by
  unfold queueUpdate prepare
  simp only [Prog.bind_assoc, Prog.ite_bind, Prog.pure_bind, Prog.fail_bind]

/-! ## What is asked of the package -/

/-- Within the signed size and both local limits. -/
def Offer.Fits (offer : Offer) (size : Nat) : Prop :=
  size ≤ offer.signed.manifest.sizeBytes ∧ size ≤ offer.config.updates.maxDownloadBytes ∧
    size ≤ hardMaxDownloadBytes

/-- **The body is the signed package**: its size and its digest are the signed
ones, and the size is within the local limits. -/
def Offer.Accepts (offer : Offer) (body : Bytes) : Prop :=
  body.length = offer.signed.manifest.sizeBytes ∧ P.sha256 body = offer.signed.manifest.sha256 ∧
    offer.Fits body.length

variable {P W} {offer : Offer} {nonce : String} {w w' : World}

theorem Offer.Fits.le {size size' : Nat} (h : offer.Fits size') (hle : size ≤ size') :
    offer.Fits size :=
  ⟨hle.trans h.1, hle.trans h.2.1, hle.trans h.2.2⟩

theorem checkedAdd_eq_some {a b c : Nat} :
    checkedAdd a b = some c ↔ c = a + b ∧ a + b < 2 ^ 64 := by
  unfold checkedAdd
  split <;> simp_all [eq_comm]

/-- **However the body is cut**, it is received when all of it is within the
limits, and then as the checks on the way were not there. -/
theorem receive_eq_ok {received package : Bytes} (chunks : List Bytes)
    (hfits : offer.Fits received.length) :
    receive offer nonce received chunks w = (.ok package, w') ↔
      collect nonce chunks w = (.ok (), w') ∧ package = received ++ chunks.flatten ∧
        offer.Fits package.length := by
  induction chunks generalizing received w with
  | nil =>
    unfold receive collect
    rw [Prog.bind_eq_ok, Prog.bind_eq_ok]
    constructor
    · rintro ⟨t, w₁, ht, h⟩
      cases h
      exact ⟨⟨t, w', ht, rfl⟩, by simp, hfits⟩
    · rintro ⟨⟨t, w₁, ht, h⟩, rfl, -⟩
      cases h
      exact ⟨t, w', ht, by simp; rfl⟩
  | cons chunk chunks ih =>
    unfold receive collect
    constructor
    · intro h
      obtain ⟨t, w₁, ht, h⟩ := Prog.bind_eq_ok.mp h
      obtain ⟨count, _, hneed, h⟩ := Prog.bind_eq_ok.mp h
      obtain ⟨hcount, rfl⟩ := Prog.need_eq_ok.mp hneed
      obtain ⟨_, _, hrefuse, h⟩ := Prog.bind_eq_ok.mp h
      obtain ⟨hcheck, rfl⟩ := Prog.ensure_eq_ok.mp hrefuse
      obtain ⟨t', w₂, ht', h⟩ := Prog.bind_eq_ok.mp h
      obtain ⟨_, w₃, happens, h⟩ := Prog.bind_eq_ok.mp h
      have hsize : count = (received ++ chunk).length := by
        rw [List.length_append]
        exact (checkedAdd_eq_some.mp hcount).1
      obtain ⟨hcollect, hpackage, hfits'⟩ := (ih (hsize ▸ hcheck)).mp h
      refine ⟨Prog.bind_eq_ok.mpr ⟨t, _, ht, Prog.bind_eq_ok.mpr ⟨t', _, ht',
        Prog.bind_eq_ok.mpr ⟨(), w₃, happens, hcollect⟩⟩⟩, ?_, hfits'⟩
      rw [hpackage, List.flatten_cons, List.append_assoc]
    · rintro ⟨h, hpackage, hfits'⟩
      obtain ⟨t, w₁, ht, h⟩ := Prog.bind_eq_ok.mp h
      obtain ⟨t', w₂, ht', h⟩ := Prog.bind_eq_ok.mp h
      obtain ⟨_, w₃, happens, h⟩ := Prog.bind_eq_ok.mp h
      rw [List.flatten_cons, ← List.append_assoc] at hpackage
      have hcheck : offer.Fits (received.length + chunk.length) := by
        refine hfits'.le ?_
        rw [hpackage, List.length_append, List.length_append]
        exact Nat.le_add_right _ _
      have hcount : checkedAdd received.length chunk.length
          = some (received.length + chunk.length) :=
        checkedAdd_eq_some.mpr ⟨rfl, hcheck.2.2.trans_lt (by decide)⟩
      refine Prog.bind_eq_ok.mpr ⟨t, w₁, ht, Prog.bind_eq_ok.mpr ⟨_, w₁,
        Prog.need_eq_ok.mpr ⟨hcount, rfl⟩, Prog.bind_eq_ok.mpr ⟨(), w₁,
        Prog.ensure_eq_ok.mpr ⟨hcheck, rfl⟩, Prog.bind_eq_ok.mpr ⟨t', w₂, ht',
        Prog.bind_eq_ok.mpr ⟨(), w₃, happens, ?_⟩⟩⟩⟩⟩
      rw [← List.length_append] at hcheck
      exact (ih hcheck).mpr ⟨h, hpackage, hfits'⟩

/-! ## What becomes of the queue -/

/-- Every artifact in the queue is within the limits, or was there before. -/
def Offer.Bounds (offer : Offer) (s₀ s : Station) : Prop :=
  ∀ e ∈ s.shared.incoming, ∀ bytes ∈ e.2.artifact, offer.Fits bytes.length ∨
    ∃ e₀ ∈ s₀.shared.incoming, e₀.1 = e.1 ∧ bytes ∈ e₀.2.artifact

/-- **At no time since does a staged artifact exceed a limit.** -/
structure Offer.Within (offer : Offer) (w₀ w : World) : Prop where
  script : w.script ⊆ w₀.script
  since : w₀.trace <:+ w.trace
  visited : ∀ entry ∈ w.trace, entry ∈ w₀.trace ∨ offer.Bounds w₀.station entry.2
  now : offer.Bounds w₀.station w.station

/-- **Nothing of the call is in the queue**: every directory, and its
`ready.json`, was there before. -/
def NothingStaged (s₀ s : Station) : Prop :=
  ∀ e ∈ s.shared.incoming, ∃ e₀ ∈ s₀.shared.incoming, e₀.1 = e.1 ∧
    (e.2.ready = true → e₀.2.ready = true) ∧ ∀ bytes ∈ e.2.artifact, bytes ∈ e₀.2.artifact

/-- The removal in the destructor of `Staging` has failed. -/
def DropFailed (w₀ w : World) : Prop :=
  ∃ name s past, w.trace = (.dropFailed name, s) :: past ∧ w₀.trace <:+ past

theorem NothingStaged.bounds {s₀ s : Station} (h : NothingStaged s₀ s) : offer.Bounds s₀ s :=
  fun e he bytes hbytes =>
    have ⟨e₀, he₀, hname, _, hartifact⟩ := h e he
    .inr ⟨e₀, he₀, hname, hartifact bytes hbytes⟩

theorem NothingStaged.refl (s : Station) : NothingStaged s s :=
  fun e he => ⟨e, he, rfl, fun h => h, fun _ h => h⟩

namespace Offer.Within

variable {w₀ : World} {e : Event} (h : offer.Within w₀ w)

include h

theorem happen (hb : offer.Bounds w₀.station (e.apply w.station)) :
    offer.Within w₀ (w.happen e) := by
  refine ⟨h.script, h.since.trans (List.suffix_cons _ _), fun entry hentry => ?_, hb⟩
  obtain rfl | hentry := List.mem_cons.mp hentry
  · exact .inr h.now
  · exact h.visited entry hentry

theorem same (he : (e.apply w.station).shared.incoming = w.station.shared.incoming) :
    offer.Within w₀ (w.happen e) := by
  refine h.happen ?_
  unfold Offer.Bounds
  rw [he]
  exact h.now

theorem shift {t : Turn} {script : List Turn} (hs : w.script = t :: script) :
    offer.Within w₀ { w with script } :=
  ⟨fun _ ht => h.script (hs ▸ List.mem_cons_of_mem _ ht), h.since, h.visited, h.now⟩

end Offer.Within

/-! ## Before the directory is made -/

/-- So far nothing is staged. -/
structure Offer.Before (offer : Offer) (w₀ w : World) : Prop extends offer.Within w₀ w where
  nothing : NothingStaged w₀.station w.station

namespace Offer.Before

variable {w₀ : World} {e : Event} (h : offer.Before w₀ w)

include h

theorem happen (hn : NothingStaged w₀.station (e.apply w.station)) :
    offer.Before w₀ (w.happen e) := ⟨h.toWithin.happen hn.bounds, hn⟩

theorem same (he : (e.apply w.station).shared.incoming = w.station.shared.incoming) :
    offer.Before w₀ (w.happen e) := by
  refine h.happen ?_
  unfold NothingStaged
  rw [he]
  exact h.nothing

/-- A removal on its way takes files away only. -/
theorem stripped (name : String) (kept : Remnant) :
    offer.Before w₀ (w.happen (.stripped name kept)) := by
  refine h.happen fun e he => ?_
  obtain ⟨e', he', rfl⟩ := List.mem_map.mp he
  obtain ⟨e₀, he₀, hname, hready, hartifact⟩ := h.nothing e' he'
  split
  · refine ⟨e₀, he₀, hname, fun hr => hready ?_, fun bytes hb => hartifact bytes ?_⟩
    · exact (Bool.and_eq_true_iff.mp hr).1
    · cases hk : kept.artifact <;> simp_all [Remnant.of]
  · exact ⟨e₀, he₀, hname, hready, hartifact⟩

theorem removedDir (name : String) : offer.Before w₀ (w.happen (.removedDir name)) :=
  h.happen fun e he => h.nothing e (List.mem_of_mem_filter he)

end Offer.Before

theorem undisturbed_before (offer : Offer) (w₀ : World) : Undisturbed (offer.Before w₀) :=
  undisturbed_of_incoming (fun hs h => ⟨h.toWithin.shift hs, h.nothing⟩) fun he h => h.same he

theorem reapConsumedRequest_before (w₀ : World) :
    reapConsumedRequest.Keeps (offer.Before w₀) := by
  have hI : Undisturbed (offer.Before w₀) := undisturbed_before offer w₀
  refine hI.turn.bind fun t => Prog.keeps_get.bind fun w => ?_
  extract_lets found
  refine (Prog.keeps_modify fun _ h => h.same rfl).bind fun _ => ?_
  clear_value found
  cases found with
  | none => exact Prog.keeps_pure ()
  | some result =>
    refine Prog.keeps_lift.bind fun _ => Prog.keeps_ensure.bind fun _ => ?_
    have hremove : (removeDirAll result.nonce).Keeps (offer.Before w₀) :=
      hI.step.bind fun t => (Prog.keeps_modify fun _ h => h.stripped _ t.kept).bind fun _ w h =>
        hI.performs h fun _ h => h.removedDir _
    exact hremove.bind fun _ => Prog.Keeps.bind (fun w h => hI.performs h fun _ h => h.same rfl)
      fun _ => hI.discards _

/-- **Until the directory is made the call has staged nothing**, and it is made
in an empty queue. -/
theorem prepare_leads (w₀ : World) (h : offer.Before w₀ w) :
    (prepare P W offer).Leads w
      (fun _ w' => offer.Before w₀ w' ∧ w'.station.shared.incoming = [])
      (fun _ => offer.Before w₀) (offer.Before w₀) := by
  have hI : Undisturbed (offer.Before w₀) := undisturbed_before offer w₀
  have next : ∀ {α : Type} {m : Act α} {f : α → Act (String × String)}, m.Keeps (offer.Before w₀) →
      (∀ a w, offer.Before w₀ w → (f a).Leads w
        (fun _ w' => offer.Before w₀ w' ∧ w'.station.shared.incoming = [])
        (fun _ => offer.Before w₀) (offer.Before w₀)) →
      ∀ w, offer.Before w₀ w → (m >>= f).Leads w
        (fun _ w' => offer.Before w₀ w' ∧ w'.station.shared.incoming = [])
        (fun _ => offer.Before w₀) (offer.Before w₀) :=
    fun hm hf w h => Prog.leads_bind.mpr ((hm w h).imp fun a w' h' => hf a w' h')
  refine next (hI.verifyManifest P offer.config offer.signed) (fun _ =>
    next Prog.keeps_lift fun base => next Prog.keeps_ensure fun _ => next Prog.keeps_lift fun parsed =>
    next Prog.keeps_ensure fun _ => next (reapConsumedRequest_before w₀) fun _ =>
    next hI.step fun t => next (hI.discards _) fun _ =>
    next (Prog.keeps_modify fun _ h => h.same rfl) fun _ w₁ h₁ => ?_) w h
  refine Prog.leads_bind.mpr (Prog.leads_get.mpr ?_)
  refine Prog.leads_ite (fun _ => ?_) fun hempty => ?_
  · exact Prog.leads_bind.mpr (Prog.leads_modify.mpr ((Prog.leads_fail _).mpr (h₁.same rfl)))
  · exact (Prog.leads_pure _).mpr ⟨h₁, not_not.mp hempty⟩

/-! ## While it is staged -/

/-- The queue holds the directory of the call, with this in it. -/
structure Offer.Holds (offer : Offer) (w₀ : World) (nonce : String) (r : Request) (w : World) : Prop
    extends offer.Within w₀ w where
  alone : w.station.shared.incoming = [(nonce, r)]
  fits : ∀ bytes ∈ r.artifact, offer.Fits bytes.length

/-- ... with something in it. -/
def Offer.Staged (offer : Offer) (w₀ : World) (nonce : String) (w : World) : Prop :=
  ∃ r, offer.Holds w₀ nonce r w

section Holds

variable {w₀ : World} {r : Request}

/-- The directory of the call gets other contents. -/
theorem Offer.Holds.updates (h : offer.Holds w₀ nonce r w) {e : Event} {f : Request → Request}
    (he : e.apply w.station = w.station.update nonce f)
    (hf : ∀ bytes ∈ (f r).artifact, offer.Fits bytes.length) :
    offer.Holds w₀ nonce (f r) (w.happen e) := by
  have halone : (e.apply w.station).shared.incoming = [(nonce, f r)] := by
    rw [he]
    show w.station.shared.incoming.map _ = _
    rw [h.alone, List.map_singleton, if_pos rfl]
  refine ⟨h.toWithin.happen fun e' he' bytes hbytes => .inl ?_, halone, hf⟩
  rw [halone, List.mem_singleton] at he'
  subst he'
  exact hf bytes hbytes

theorem undisturbed_holds (offer : Offer) (w₀ : World) (nonce : String) (r : Request) :
    Undisturbed (offer.Holds w₀ nonce r) :=
  undisturbed_of_incoming (fun hs h => ⟨h.toWithin.shift hs, h.alone, h.fits⟩)
    fun he h => ⟨h.toWithin.same he, he.trans h.alone, h.fits⟩

/-- Going on from what a part makes of the directory. -/
theorem Offer.Holds.then {α β : Type} {m : Act α} {f : α → Act β} {Q : α → World → Prop}
    {K : β → World → Prop} (hm : m.Leads w Q (fun _ => offer.Staged w₀ nonce) (offer.Staged w₀ nonce))
    (hf : ∀ a w', Q a w' → (f a).Leads w' K (fun _ => offer.Staged w₀ nonce)
      (offer.Staged w₀ nonce)) :
    (m >>= f).Leads w K (fun _ => offer.Staged w₀ nonce) (offer.Staged w₀ nonce) :=
  Prog.leads_bind.mpr (hm.imp hf)

/-- A part that leaves the directory as it is. -/
theorem Offer.Holds.keeps (h : offer.Holds w₀ nonce r w) {α : Type} {m : Act α}
    (hm : m.Keeps (offer.Holds w₀ nonce r)) :
    m.Leads w (fun _ => offer.Holds w₀ nonce r) (fun _ => offer.Staged w₀ nonce)
      (offer.Staged w₀ nonce) :=
  (hm w h).mono (fun _ _ h => h) (fun _ _ h => ⟨r, h⟩) fun _ h => ⟨r, h⟩

/-- An effect that gives the directory other contents. -/
theorem Offer.Holds.performs (h : offer.Holds w₀ nonce r w) {e : Event} {f : Request → Request}
    (he : ∀ s, e.apply s = s.update nonce f)
    (hf : ∀ bytes ∈ (f r).artifact, offer.Fits bytes.length) :
    (perform e).Leads w (fun _ => offer.Holds w₀ nonce (f r)) (fun _ => offer.Staged w₀ nonce)
      (offer.Staged w₀ nonce) :=
  ((undisturbed_holds offer w₀ nonce r).performs h fun _ h => h.updates (he _) hf).mono
    (fun _ _ h => h) (fun _ _ h => ⟨r, h⟩) fun _ h => ⟨r, h⟩

theorem request_holds (base : String) (h : offer.Holds w₀ nonce ⟨false, none, none⟩ w) :
    (request W offer base nonce).Leads w
      (fun chunks w' => (∃ t ∈ w₀.script, t.response.chunks = chunks) ∧
        offer.Holds w₀ nonce ⟨false, none, some []⟩ w')
      (fun _ => offer.Staged w₀ nonce) (offer.Staged w₀ nonce) := by
  have hI := undisturbed_holds offer w₀ nonce
  refine Offer.Holds.then (h.keeps ((hI _).discards _)) fun _ w₁ h₁ => ?_
  refine Offer.Holds.then (h₁.performs (f := fun r => { r with
    artifact := some (r.artifact.getD [] ++ []) }) (fun _ => rfl) ?_) fun _ w₂ h₂ => ?_
  · rintro bytes ⟨⟩
    exact ⟨Nat.zero_le _, Nat.zero_le _, Nat.zero_le _⟩
  refine Offer.Holds.then (((hI _).stepOr_leads _ h₂).mono (fun _ _ h => h) (fun _ _ h => ⟨_, h⟩)
    fun _ h => ⟨_, h⟩) fun t w₃ h₃ => ?_
  refine Offer.Holds.then (h₃.2.keeps Prog.keeps_ensure) fun _ w₄ h₄ => ?_
  refine Offer.Holds.then (h₄.keeps Prog.keeps_ensure) fun _ w₅ h₅ => ?_
  refine Offer.Holds.then (h₅.keeps Prog.keeps_ensure) fun _ w₆ h₆ => ?_
  exact (Prog.leads_pure _).mpr ⟨⟨t, h₂.script h₃.1, rfl⟩, h₆⟩

/-- **What is staged is what has arrived**, and never more than the limits. -/
theorem receive_holds {received : Bytes} (chunks : List Bytes)
    (h : offer.Holds w₀ nonce ⟨false, none, some received⟩ w) :
    (receive offer nonce received chunks).Leads w
      (fun package w' => package = received ++ chunks.flatten ∧
        offer.Holds w₀ nonce ⟨false, none, some package⟩ w')
      (fun _ => offer.Staged w₀ nonce) (offer.Staged w₀ nonce) := by
  induction chunks generalizing received w with
  | nil =>
    have hI := undisturbed_holds offer w₀ nonce ⟨false, none, some received⟩
    refine Offer.Holds.then (h.keeps (hI.stepOr _)) fun _ w₁ h₁ => ?_
    exact (Prog.leads_pure _).mpr ⟨by simp, h₁⟩
  | cons chunk chunks ih =>
    have hI := undisturbed_holds offer w₀ nonce ⟨false, none, some received⟩
    refine Offer.Holds.then (h.keeps (hI.stepOr _)) fun _ w₁ h₁ => ?_
    refine Prog.leads_bind.mpr (Prog.leads_need.mpr ⟨fun count hcount => ?_, fun _ => ⟨_, h₁⟩⟩)
    refine Prog.leads_bind.mpr (Prog.leads_ensure.mpr ⟨fun hcheck => ?_, fun _ => ⟨_, h₁⟩⟩)
    refine Offer.Holds.then (h₁.keeps (hI.stepOr _)) fun _ w₂ h₂ => ?_
    have hfits : offer.Fits (received ++ chunk).length := by
      rw [List.length_append, ← (checkedAdd_eq_some.mp hcount).1]
      exact hcheck
    refine Prog.leads_bind.mpr (Prog.leads_modify.mpr ((ih (h₂.updates
      (f := fun r => { r with artifact := some (r.artifact.getD [] ++ chunk) }) rfl ?_)).imp
      fun package w₃ h₃ => ?_))
    · rintro bytes ⟨⟩
      exact hfits
    · rw [List.flatten_cons, ← List.append_assoc]
      exact h₃

theorem publish_holds {package : Bytes}
    (h : offer.Holds w₀ nonce ⟨false, none, some package⟩ w) :
    (publish offer nonce).Leads w
      (fun _ => offer.Holds w₀ nonce ⟨true, some (signedJson offer.signed), some package⟩)
      (fun _ => offer.Staged w₀ nonce) (offer.Staged w₀ nonce) := by
  have hI := undisturbed_holds offer w₀ nonce
  refine Offer.Holds.then (h.keeps ((hI _).discards _)) fun _ w₁ h₁ => ?_
  refine Offer.Holds.then (h₁.performs (f := fun r => { r with
    manifest := some (signedJson offer.signed) }) (fun _ => rfl) h₁.fits) fun _ w₂ h₂ => ?_
  refine Offer.Holds.then (h₂.keeps ((hI _).discards _)) fun _ w₃ h₃ => ?_
  refine Offer.Holds.then (h₃.keeps ((hI _).discards _)) fun _ w₄ h₄ => ?_
  refine Offer.Holds.then (h₄.keeps (hI _).unixNow) fun now w₅ h₅ => ?_
  refine Offer.Holds.then (h₅.performs (f := fun r => { r with ready := true }) (fun _ => rfl)
    h₅.fits) fun _ w₆ h₆ => ?_
  exact h₆.keeps (((hI _).discards _).bind fun _ => (hI _).discards _)

/-- **Staging that returns has published the signed package**, and the body of
the response is that package. -/
theorem stage_holds (base : String) (h : offer.Holds w₀ nonce ⟨false, none, none⟩ w) :
    (stage P W offer base nonce).Leads w
      (fun _ w' => ∃ t ∈ w₀.script, offer.Accepts P t.response.chunks.flatten ∧
        offer.Holds w₀ nonce
          ⟨true, some (signedJson offer.signed), some t.response.chunks.flatten⟩ w')
      (fun _ => offer.Staged w₀ nonce) (offer.Staged w₀ nonce) := by
  rw [stage_eq]
  refine Offer.Holds.then (request_holds base h) fun chunks w₁ h₁ => ?_
  obtain ⟨⟨t, ht, rfl⟩, h₁⟩ := h₁
  refine Offer.Holds.then (receive_holds t.response.chunks h₁) fun package w₂ h₂ => ?_
  obtain ⟨rfl, h₂⟩ := h₂
  refine Prog.leads_bind.mpr (Prog.leads_ensure.mpr ⟨fun hsize => ?_, fun _ => ⟨_, h₂⟩⟩)
  refine Prog.leads_bind.mpr (Prog.leads_ensure.mpr ⟨fun hdigest => ?_, fun _ => ⟨_, h₂⟩⟩)
  exact (publish_holds h₂).imp fun _ w₃ h₃ => ⟨t, ht, ⟨hsize, hdigest, h₃.fits _ rfl⟩, h₃⟩

/-- **The destructor leaves an empty queue, or has failed.** -/
theorem dropStaging_holds (h : offer.Staged w₀ nonce w) :
    (dropStaging nonce).Leads w
      (fun _ w' => offer.Within w₀ w' ∧ (w'.station.shared.incoming = [] ∨ DropFailed w₀ w'))
      (fun _ _ => False) (offer.Within w₀) := by
  obtain ⟨r, h⟩ := h
  have hI := undisturbed_holds offer w₀ nonce
  have hremove : (removeDirAll nonce).Leads w
      (fun _ w' => offer.Within w₀ w' ∧ w'.station.shared.incoming = [])
      (fun _ => offer.Staged w₀ nonce) (offer.Staged w₀ nonce) := by
    refine Offer.Holds.then (h.keeps (hI r).step) fun t w₁ h₁ => ?_
    refine Prog.leads_bind.mpr (Prog.leads_modify.mpr ?_)
    have h₂ : offer.Holds w₀ nonce (t.kept.of r) (w₁.happen (.stripped nonce t.kept)) := by
      refine h₁.updates rfl fun bytes hbytes => h₁.fits bytes ?_
      cases hk : t.kept.artifact <;> simp_all [Remnant.of]
    refine ((hI _).performs h₂ fun w₃ h₃ => ?_).mono (fun _ _ h => h) (fun _ _ h => ⟨_, h⟩)
      fun _ h => ⟨_, h⟩
    have hempty : (Event.apply (.removedDir nonce) w₃.station).shared.incoming = [] := by
      show w₃.station.shared.incoming.filter _ = []
      rw [h₃.alone]
      simp
    refine ⟨h₃.toWithin.happen fun e he => ?_, hempty⟩
    rw [hempty] at he
    cases he
  refine Prog.leads_bind.mpr (Prog.leads_attempt.mpr (hremove.mono (fun _ w₁ h₁ => ?_)
    (fun _ w₁ h₁ => ?_) fun _ h₁ => ?_))
  · exact (Prog.leads_pure _).mpr ⟨h₁.1, .inl h₁.2⟩
  · obtain ⟨r₁, h₁⟩ := h₁
    exact Prog.leads_modify.mpr ⟨h₁.toWithin.same rfl,
      .inr ⟨nonce, w₁.station, w₁.trace, rfl, h₁.since⟩⟩
  · obtain ⟨r₁, h₁⟩ := h₁
    exact h₁.toWithin

end Holds

/-! ## The call -/

theorem stage_eq_ok {base : String} :
    stage P W offer base nonce w = (.ok (), w') ↔
      ∃ chunks w₁ w₂, request W offer base nonce w = (.ok chunks, w₁) ∧
        collect nonce chunks w₁ = (.ok (), w₂) ∧ publish offer nonce w₂ = (.ok (), w') ∧
        offer.Accepts P chunks.flatten := by
  have hnothing : offer.Fits ([] : Bytes).length := ⟨Nat.zero_le _, Nat.zero_le _, Nat.zero_le _⟩
  rw [stage_eq]
  constructor
  · intro h
    obtain ⟨chunks, w₁, hrequest, h⟩ := Prog.bind_eq_ok.mp h
    obtain ⟨package, w₂, hreceive, h⟩ := Prog.bind_eq_ok.mp h
    obtain ⟨_, _, hrefuse, h⟩ := Prog.bind_eq_ok.mp h
    obtain ⟨hsize, rfl⟩ := Prog.ensure_eq_ok.mp hrefuse
    obtain ⟨_, _, hrefuse', hpublish⟩ := Prog.bind_eq_ok.mp h
    obtain ⟨hdigest, rfl⟩ := Prog.ensure_eq_ok.mp hrefuse'
    obtain ⟨hcollect, hpackage, hfits⟩ := (receive_eq_ok chunks hnothing).mp hreceive
    rw [List.nil_append] at hpackage
    subst hpackage
    exact ⟨chunks, w₁, _, hrequest, hcollect, hpublish, hsize, hdigest, hfits⟩
  · rintro ⟨chunks, w₁, w₂, hrequest, hcollect, hpublish, hsize, hdigest, hfits⟩
    have hreceive : receive offer nonce [] chunks w₁ = (.ok chunks.flatten, w₂) :=
      (receive_eq_ok chunks hnothing).mpr ⟨hcollect, (List.nil_append _).symm, hfits⟩
    exact Prog.bind_eq_ok.mpr ⟨chunks, w₁, hrequest, Prog.bind_eq_ok.mpr ⟨_, w₂, hreceive,
      Prog.bind_eq_ok.mpr ⟨(), w₂, Prog.ensure_eq_ok.mpr ⟨hsize, rfl⟩,
      Prog.bind_eq_ok.mpr ⟨(), w₂, Prog.ensure_eq_ok.mpr ⟨hdigest, rfl⟩, hpublish⟩⟩⟩⟩

/-- **When the call returns**: when every other step succeeds and the body is
the signed package. -/
theorem queueUpdate_eq_ok :
    queueUpdate P W offer w = (.ok nonce, w') ↔
      ∃ body, otherSteps P W offer w = (.ok (nonce, body), w') ∧ offer.Accepts P body := by
  rw [queueUpdate_eq]
  unfold otherSteps
  constructor
  · intro h
    obtain ⟨⟨base, nonce'⟩, w₁, hprepare, h⟩ := Prog.bind_eq_ok.mp h
    obtain ⟨_, w₂, hmake, h⟩ := Prog.bind_eq_ok.mp h
    obtain ⟨_, w₃, hstage, h⟩ := Prog.bind_eq_ok.mp h
    cases h
    obtain ⟨chunks, w₄, w₅, hrequest, hcollect, hpublish, haccepts⟩ :=
      stage_eq_ok.mp (Prog.ok_of_guarded hstage)
    exact ⟨chunks.flatten, Prog.bind_eq_ok.mpr ⟨(base, nonce), w₁, hprepare,
      Prog.bind_eq_ok.mpr ⟨(), w₂, hmake, Prog.bind_eq_ok.mpr ⟨chunks, w₄, hrequest,
      Prog.bind_eq_ok.mpr ⟨(), w₅, hcollect, Prog.bind_eq_ok.mpr ⟨(), w', hpublish, rfl⟩⟩⟩⟩⟩, haccepts⟩
  · rintro ⟨body, h, haccepts⟩
    obtain ⟨⟨base, nonce'⟩, w₁, hprepare, h⟩ := Prog.bind_eq_ok.mp h
    obtain ⟨_, w₂, hmake, h⟩ := Prog.bind_eq_ok.mp h
    obtain ⟨chunks, w₃, hrequest, h⟩ := Prog.bind_eq_ok.mp h
    obtain ⟨_, w₄, hcollect, h⟩ := Prog.bind_eq_ok.mp h
    obtain ⟨_, w₅, hpublish, h⟩ := Prog.bind_eq_ok.mp h
    cases h
    have hstage : stage P W offer base nonce w₂ = (.ok (), w') :=
      stage_eq_ok.mpr ⟨chunks, w₃, w₄, hrequest, hcollect, hpublish, haccepts⟩
    have hguarded : guarded (dropStaging nonce) (stage P W offer base nonce) w₂ = (.ok (), w') :=
      Prog.bind_eq_ok.mpr ⟨.ok (), w', Prog.attempt_eq_ok.mpr (.inl ⟨(), rfl, hstage⟩), rfl⟩
    exact Prog.bind_eq_ok.mpr ⟨(base, nonce), w₁, hprepare, Prog.bind_eq_ok.mpr ⟨(), w₂, hmake,
      Prog.bind_eq_ok.mpr ⟨(), w', hguarded, rfl⟩⟩⟩

variable (P W) in
/-- **What `queue_update` publishes.** For every offer and state, whatever the
turns and however the body is cut: the call returns exactly when its other steps
succeed and the body is the signed package; then the queue is its request,
published and with the body as its artifact. When it fails nothing of the call
is in the queue, unless the removal in the destructor has failed as well. At no
time, a kill included, does a staged artifact exceed the signed size or a local
limit. -/
theorem queueUpdate_publishes (offer : Offer) (w : World) :
    (∀ nonce w', queueUpdate P W offer w = (.ok nonce, w') ↔
      ∃ body, otherSteps P W offer w = (.ok (nonce, body), w') ∧ offer.Accepts P body) ∧
    (queueUpdate P W offer).Leads w
      (fun nonce w' => offer.Within w w' ∧ ∃ t ∈ w.script,
        offer.Accepts P t.response.chunks.flatten ∧ w'.station.shared.incoming =
          [(nonce, ⟨true, some (signedJson offer.signed), some t.response.chunks.flatten⟩)])
      (fun _ w' => offer.Within w w' ∧
        (NothingStaged w.station w'.station ∨ DropFailed w w'))
      (offer.Within w) := by
  refine ⟨fun _ _ => queueUpdate_eq_ok, ?_⟩
  have hbefore : offer.Before w w :=
    ⟨⟨fun _ h => h, List.suffix_refl _, fun _ h => .inl h, (NothingStaged.refl _).bounds⟩,
      NothingStaged.refl _⟩
  have hnothing : ∀ w', offer.Before w w' → offer.Within w w' ∧
      (NothingStaged w.station w'.station ∨ DropFailed w w') := fun _ h => ⟨h.toWithin, .inl h.nothing⟩
  rw [queueUpdate_eq]
  refine Prog.leads_bind.mpr ((prepare_leads w hbefore).mono ?_ (fun _ => hnothing)
    fun _ h => h.toWithin)
  rintro ⟨base, nonce⟩ w₁ ⟨h₁, hempty⟩
  have hI : Undisturbed fun w' => offer.Before w w' ∧ w'.station.shared.incoming = [] :=
    undisturbed_of_incoming (fun hs h => ⟨⟨h.1.toWithin.shift hs, h.1.nothing⟩, h.2⟩)
      fun he h => ⟨h.1.same he, he.trans h.2⟩
  have hmade : ∀ w', (offer.Before w w' ∧ w'.station.shared.incoming = []) →
      offer.Holds w nonce ⟨false, none, none⟩ (w'.happen (.madeDir nonce)) := by
    rintro w' ⟨h, hempty⟩
    have halone : (Event.apply (.madeDir nonce) w'.station).shared.incoming
        = [(nonce, ⟨false, none, none⟩)] := congrArg (List.cons _) hempty
    refine ⟨h.toWithin.happen fun e he bytes hbytes => ?_, halone, fun _ hb => nomatch hb⟩
    rw [halone, List.mem_singleton] at he
    subst he
    cases hbytes
  refine Prog.leads_bind.mpr ((hI.performs ⟨h₁, hempty⟩ hmade).mono (fun _ w₂ h₂ => ?_)
    (fun _ _ h => hnothing _ h.1) fun _ h => h.1.toWithin)
  refine Prog.leads_bind.mpr (Prog.leads_guarded ((stage_holds base h₂).mono (fun _ w₃ h₃ => ?_)
    (fun _ w₃ h₃ => (dropStaging_holds h₃).mono (fun _ w₄ h₄ => ?_) (fun _ _ h => h.elim)
      fun _ h => h) fun _ h => ?_))
  · obtain ⟨t, ht, haccepts, h₃⟩ := h₃
    exact (Prog.leads_pure _).mpr ⟨h₃.toWithin, t, ht, haccepts, h₃.alone⟩
  · refine ⟨h₄.1, h₄.2.imp_left fun hnone e he => ?_⟩
    rw [hnone] at he
    cases he
  · obtain ⟨r, h⟩ := h
    exact h.toWithin

/-! ## A removal that fails -/

section Removal

open Sample (platform)

/-- A turn whose effect fails. -/
def broken : Turn := { idle with fate := .failed false }

/-- A call on an empty queue, with this script. -/
def calling (script : List Turn) : World := ⟨⟨none, ⟨none, none, none, []⟩, []⟩, script, []⟩

/-- The download is interrupted, and the removal fails. -/
def abandoned : Outcome Fault String × World :=
  queueUpdate platform web Endpoint.offer (calling (List.replicate 9 idle ++ [broken, broken]))

/-- The last sync of the directory fails, and the removal fails. -/
def unsynced : Outcome Fault String × World :=
  queueUpdate platform web Endpoint.offer (calling (List.replicate 19 idle ++ [broken, broken]))

theorem NothingStaged.ready_eq_nil {s : Station} (h : NothingStaged (calling []).station s) :
    s.shared.incoming.map (fun e => e.2.ready) = [] := by
  rw [List.map_eq_nil_iff, List.eq_nil_iff_forall_not_mem]
  intro e he
  obtain ⟨e₀, he₀, -⟩ := h e he
  cases he₀

/-- **What a failed removal leaves**: a staging directory nothing was published
from, or a published request of a call that has returned an error. -/
theorem left_by_failed_removal :
    (abandoned.1 = .error (.detailed "interrupted package download: " "") ∧
      abandoned.2.station.shared.incoming.map (fun e => e.2.ready) = [false] ∧
      ¬ NothingStaged (calling []).station abandoned.2.station) ∧
    (unsynced.1 = .error (.os "") ∧
      unsynced.2.station.shared.incoming.map (fun e => e.2.ready) = [true] ∧
      ¬ NothingStaged (calling []).station unsynced.2.station) := by
  obtain ⟨habandoned, hleft⟩ : abandoned.1 = .error (.detailed "interrupted package download: " "") ∧
      abandoned.2.station.shared.incoming.map (fun e => e.2.ready) = [false] := by
    decide +kernel
  obtain ⟨hunsynced, hpublished⟩ : unsynced.1 = .error (.os "") ∧
      unsynced.2.station.shared.incoming.map (fun e => e.2.ready) = [true] := by
    decide +kernel
  refine ⟨⟨habandoned, hleft, fun h => ?_⟩, hunsynced, hpublished, fun h => ?_⟩
  · cases hleft.symm.trans h.ready_eq_nil
  · cases hpublished.symm.trans h.ready_eq_nil

end Removal

end Lariska.Endpoint
