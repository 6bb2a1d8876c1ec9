import Mathlib.Tactic

/-!
# Programs that fail and are killed

A program that works on durable state ends in one of three ways: it
returns a value, it returns an error, or the process is killed between two
of its effects. The first two run the cleanup the program has registered –
a destructor, a guard – and the third does not, which is the difference a
recovery argument is about.

`Prog σ ε α` is such a program over states `σ`, and `Prog.Leads` is the
assertion about its run from one state: what holds if it returns, if it
fails, and if it is killed. The rules below decompose that assertion along
the program, one per way of building programs, so a proof follows the
program's text. The kill postcondition is carried unchanged through every
rule: an invariant stated there holds wherever the process can die.

Nothing here depends on what the states are.
-/

/-- How a run ends: with a value, with an error, or killed in the middle. -/
inductive Outcome (ε α : Type) where
  | ok (value : α)
  | error (fault : ε)
  | killed
deriving DecidableEq

/-- A program over states `σ` with errors `ε`, returning an `α`. -/
def Prog (σ ε α : Type) : Type := σ → Outcome ε α × σ

namespace Prog

variable {σ ε α β γ : Type}

/-- Sequencing: an error or a kill ends the run where it happens. -/
def andThen (m : Prog σ ε α) (f : α → Prog σ ε β) : Prog σ ε β := fun s =>
  match m s with
  | (.ok a, s') => f a s'
  | (.error e, s') => (.error e, s')
  | (.killed, s') => (.killed, s')

instance : Monad (Prog σ ε) where
  pure a := fun s => (.ok a, s)
  bind := andThen

/-- Sequencing is associative: a part of a program may be named. -/
theorem bind_assoc (m : Prog σ ε α) (f : α → Prog σ ε β) (g : β → Prog σ ε γ) :
    m >>= f >>= g = m >>= fun a => f a >>= g := by
  funext s
  show andThen (andThen m f) g s = andThen m (fun a => andThen (f a) g) s
  unfold andThen
  rcases m s with ⟨_ | _ | _, s'⟩ <;> rfl

/-- Ends the program with an error. -/
def fail (e : ε) : Prog σ ε α := fun s => (.error e, s)

theorem fail_bind (e : ε) (f : α → Prog σ ε β) : fail e >>= f = fail e := rfl

theorem pure_bind (a : α) (f : α → Prog σ ε β) : (pure a : Prog σ ε α) >>= f = f a := rfl

theorem ite_bind (c : Prop) [Decidable c] (m m' : Prog σ ε α) (f : α → Prog σ ε β) :
    (if c then m else m') >>= f = if c then m >>= f else m' >>= f := by
  split
  · rfl
  · rfl

/-- Reads the state. -/
def get : Prog σ ε σ := fun s => (.ok s, s)

/-- Replaces the state by its image. -/
def modify (f : σ → σ) : Prog σ ε Unit := fun s => (.ok (), f s)

/-- Fails with `e` unless `c` holds. -/
def ensure (c : Prop) [Decidable c] (e : ε) : Prog σ ε Unit :=
  if c then pure () else fail e

/-- The value of an option, or the error `e`. -/
def need (o : Option α) (e : ε) : Prog σ ε α :=
  match o with
  | some a => pure a
  | none => fail e

/-- The value of a pure computation that may fail. -/
def lift (x : Except ε α) : Prog σ ε α :=
  match x with
  | .ok a => pure a
  | .error e => fail e

/-- Runs `m` and hands its error back as a value. A kill is not caught. -/
def attempt (m : Prog σ ε α) : Prog σ ε (Except ε α) := fun s =>
  match m s with
  | (.ok a, s') => (.ok (.ok a), s')
  | (.error e, s') => (.ok (.error e), s')
  | (.killed, s') => (.killed, s')

/-- Runs `m` under a guard: when `m` fails, the cleanup runs, its own
failure is ignored, and the error goes on. A kill skips the cleanup. -/
def guarded (cleanup : Prog σ ε Unit) (m : Prog σ ε α) : Prog σ ε α :=
  attempt m >>= fun
    | .ok a => pure a
    | .error e => attempt cleanup >>= fun _ => fail e

/-- **What a run leads to**: `K` on a value, `E` on an error, and `D` when
the run is killed. -/
def Leads (m : Prog σ ε α) (s : σ) (K : α → σ → Prop) (E : ε → σ → Prop)
    (D : σ → Prop) : Prop :=
  match m s with
  | (.ok a, s') => K a s'
  | (.error e, s') => E e s'
  | (.killed, s') => D s'

variable {K K' : α → σ → Prop} {E E' : ε → σ → Prop} {D D' : σ → Prop} {s : σ}

/-- **The rule of consequence.** -/
theorem Leads.mono {m : Prog σ ε α} (h : m.Leads s K E D)
    (hK : ∀ a s', K a s' → K' a s') (hE : ∀ e s', E e s' → E' e s')
    (hD : ∀ s', D s' → D' s') : m.Leads s K' E' D' := by
  unfold Leads at *
  split at h
  · exact hK _ _ h
  · exact hE _ _ h
  · exact hD _ h

/-- Strengthening only what holds on a value. -/
theorem Leads.imp {m : Prog σ ε α} (h : m.Leads s K E D)
    (hK : ∀ a s', K a s' → K' a s') : m.Leads s K' E D :=
  h.mono hK (fun _ _ h => h) (fun _ h => h)

/-- **Two assertions about one run hold together.** -/
theorem Leads.and {m : Prog σ ε α} (h : m.Leads s K E D) (h' : m.Leads s K' E' D') :
    m.Leads s (fun a s' => K a s' ∧ K' a s') (fun e s' => E e s' ∧ E' e s')
      (fun s' => D s' ∧ D' s') := by
  unfold Leads at *
  split at h <;> simp_all

/-- What needs no proof. -/
theorem leads_true (m : Prog σ ε α) (s : σ) :
    m.Leads s (fun _ _ => True) (fun _ _ => True) (fun _ => True) := by
  unfold Leads
  split <;> trivial

theorem leads_pure (a : α) : (pure a : Prog σ ε α).Leads s K E D ↔ K a s := Iff.rfl

theorem leads_fail (e : ε) : (fail e : Prog σ ε α).Leads s K E D ↔ E e s := Iff.rfl

theorem leads_get {K : σ → σ → Prop} :
    (get : Prog σ ε σ).Leads s K E D ↔ K s s := Iff.rfl

theorem leads_modify {f : σ → σ} {K : Unit → σ → Prop} :
    (modify f : Prog σ ε Unit).Leads s K E D ↔ K () (f s) := Iff.rfl

/-- **The rule of sequencing.** -/
theorem leads_bind {m : Prog σ ε α} {f : α → Prog σ ε β} {K : β → σ → Prop} :
    (m >>= f).Leads s K E D ↔ m.Leads s (fun a s' => (f a).Leads s' K E D) E D := by
  show (andThen m f).Leads s K E D ↔ _
  unfold Leads andThen
  rcases m s with ⟨_ | _ | _, s'⟩ <;> exact Iff.rfl

theorem leads_map {m : Prog σ ε α} {f : α → β} {K : β → σ → Prop} :
    (f <$> m).Leads s K E D ↔ m.Leads s (fun a s' => K (f a) s') E D :=
  leads_bind (f := fun a => pure (f a))

/-- A check passes on, or fails with its error. -/
theorem leads_ensure {c : Prop} [Decidable c] {e : ε} {K : Unit → σ → Prop} :
    (ensure c e : Prog σ ε Unit).Leads s K E D ↔ (c → K () s) ∧ (¬ c → E e s) := by
  unfold ensure
  split
  · next h => exact ⟨fun hk => ⟨fun _ => hk, fun hn => absurd h hn⟩, fun hk => hk.1 h⟩
  · next h => exact ⟨fun he => ⟨fun hc => absurd hc h, fun _ => he⟩, fun hk => hk.2 h⟩

theorem leads_need {o : Option α} {e : ε} :
    (need o e : Prog σ ε α).Leads s K E D ↔
      (∀ a, o = some a → K a s) ∧ (o = none → E e s) := by
  cases o with
  | none =>
    show E e s ↔ _
    simp
  | some a =>
    show K a s ↔ _
    simp

theorem leads_lift {x : Except ε α} :
    (lift x : Prog σ ε α).Leads s K E D ↔
      (∀ a, x = .ok a → K a s) ∧ (∀ e, x = .error e → E e s) := by
  cases x with
  | ok a =>
    show K a s ↔ _
    simp
  | error e =>
    show E e s ↔ _
    simp

/-- **The rule of a caught error**: an error becomes a value, so only a kill
escapes. -/
theorem leads_attempt {m : Prog σ ε α} {K : Except ε α → σ → Prop} :
    (attempt m).Leads s K E D ↔
      m.Leads s (fun a s' => K (.ok a) s') (fun e s' => K (.error e) s') D := by
  unfold Leads attempt
  rcases m s with ⟨_ | _ | _, s'⟩ <;> exact Iff.rfl

/-- **The rule of a guard.** It is enough that an error of the guarded part
leads to a state from which the cleanup, whether it succeeds or fails, leads
to what the error should. -/
theorem leads_guarded {cleanup : Prog σ ε Unit} {m : Prog σ ε α}
    (h : m.Leads s K (fun e s' => cleanup.Leads s' (fun _ => E e) (fun _ => E e) D) D) :
    (guarded cleanup m).Leads s K E D := by
  refine leads_bind.mpr (leads_attempt.mpr (h.mono (fun a s' ha => ha) ?_ (fun _ hd => hd)))
  intro e s' hc
  exact leads_bind.mpr (leads_attempt.mpr (hc.mono (fun _ _ he => he) (fun _ _ he => he)
    (fun _ hd => hd)))

/-- A conditional leads where its chosen branch leads. -/
theorem leads_ite {c : Prop} [Decidable c] {m m' : Prog σ ε α}
    (h : c → m.Leads s K E D) (h' : ¬ c → m'.Leads s K E D) :
    (if c then m else m').Leads s K E D := by
  split
  · next hc => exact h hc
  · next hc => exact h' hc

/-- **An assertion proved for every run is proved of this one**: what
`Leads` says, read on the run's final pair. -/
theorem Leads.final {m : Prog σ ε α} {I : σ → Prop}
    (h : m.Leads s (fun _ => I) (fun _ => I) I) : I (m s).2 := by
  unfold Leads at h
  split at h <;> simp_all

/-- What holds of the error a run has ended with. -/
theorem Leads.error {m : Prog σ ε α} {e : ε} {s' : σ} (h : m.Leads s K E D)
    (hm : m s = (.error e, s')) : E e s' := by
  unfold Leads at h
  rw [hm] at h
  exact h

/-- What holds of the value a run has ended with. -/
theorem Leads.ok {m : Prog σ ε α} {a : α} {s' : σ} (h : m.Leads s K E D)
    (hm : m s = (.ok a, s')) : K a s' := by
  unfold Leads at h
  rw [hm] at h
  exact h

/-- What holds of the end of a run, however it ends. -/
theorem Leads.ends {m : Prog σ ε α} {R : Outcome ε α → σ → Prop}
    (h : m.Leads s (fun a => R (.ok a)) (fun e => R (.error e)) (R .killed)) :
    R (m s).1 (m s).2 := by
  unfold Leads at h
  split at h <;> simp_all

/-- **Where an error of a sequence comes from.** -/
theorem bind_eq_error {m : Prog σ ε α} {f : α → Prog σ ε β} {e : ε} {s' : σ} :
    (m >>= f) s = (.error e, s') ↔
      m s = (.error e, s') ∨ ∃ a s₁, m s = (.ok a, s₁) ∧ f a s₁ = (.error e, s') := by
  show andThen m f s = _ ↔ _
  unfold andThen
  rcases m s with ⟨_ | _ | _, s₁⟩ <;> simp

theorem bind_eq_ok {m : Prog σ ε α} {f : α → Prog σ ε β} {b : β} {s' : σ} :
    (m >>= f) s = (.ok b, s') ↔ ∃ a s₁, m s = (.ok a, s₁) ∧ f a s₁ = (.ok b, s') := by
  show andThen m f s = _ ↔ _
  unfold andThen
  rcases m s with ⟨_ | _ | _, s₁⟩ <;> simp

theorem ensure_eq_ok {c : Prop} [Decidable c] {e : ε} {u : Unit} {s' : σ} :
    (ensure c e : Prog σ ε Unit) s = (.ok u, s') ↔ c ∧ s = s' := by
  unfold ensure
  split
  · next h =>
    show ((Outcome.ok (), s) : Outcome ε Unit × σ) = _ ↔ _
    simp [h]
  · next h =>
    show ((Outcome.error e, s) : Outcome ε Unit × σ) = _ ↔ _
    simp [h]

theorem need_eq_ok {o : Option α} {e : ε} {a : α} {s' : σ} :
    (need o e : Prog σ ε α) s = (.ok a, s') ↔ o = some a ∧ s = s' := by
  cases o with
  | none =>
    show ((Outcome.error e, s) : Outcome ε α × σ) = _ ↔ _
    simp
  | some b =>
    show ((Outcome.ok b, s) : Outcome ε α × σ) = _ ↔ _
    simp

theorem attempt_eq_ok {m : Prog σ ε α} {r : Except ε α} {s' : σ} :
    attempt m s = (.ok r, s') ↔
      (∃ a, r = .ok a ∧ m s = (.ok a, s')) ∨ ∃ e, r = .error e ∧ m s = (.error e, s') := by
  unfold attempt
  rcases m s with ⟨_ | _ | _, s₁⟩ <;> simp [eq_comm]

theorem attempt_ne_error {m : Prog σ ε α} {e : ε} {s' : σ} : attempt m s ≠ (.error e, s') := by
  unfold attempt
  rcases m s with ⟨_ | _ | _, s₁⟩ <;> simp

-- From here on a run is reasoned about by the rules, not by running it.
attribute [irreducible] Leads

/-! ## The invariants of a program -/

/-- Wherever the program ends – with a value, with an error or killed – `I`
holds, if it held at the start. -/
def Keeps (m : Prog σ ε α) (I : σ → Prop) : Prop :=
  ∀ s, I s → m.Leads s (fun _ => I) (fun _ => I) I

section Keeps

variable {I : σ → Prop}

theorem keeps_pure (a : α) : (pure a : Prog σ ε α).Keeps I := fun _ hi =>
  (leads_pure a).mpr hi

theorem keeps_fail (e : ε) : (fail e : Prog σ ε α).Keeps I := fun _ hi =>
  (leads_fail e).mpr hi

theorem keeps_get : (get : Prog σ ε σ).Keeps I := fun _ hi => leads_get.mpr hi

theorem keeps_modify {f : σ → σ} (h : ∀ s, I s → I (f s)) :
    (modify f : Prog σ ε Unit).Keeps I := fun s hi => leads_modify.mpr (h s hi)

/-- An invariant of the parts is one of the sequence. -/
theorem Keeps.bind {m : Prog σ ε α} {f : α → Prog σ ε β} (h : m.Keeps I)
    (hf : ∀ a, (f a).Keeps I) : (m >>= f).Keeps I := fun s hi =>
  leads_bind.mpr ((h s hi).imp fun a s' hi' => hf a s' hi')

theorem keeps_ensure {c : Prop} [Decidable c] {e : ε} : (ensure c e : Prog σ ε Unit).Keeps I :=
  fun _ hi => leads_ensure.mpr ⟨fun _ => hi, fun _ => hi⟩

theorem keeps_need {o : Option α} {e : ε} : (need o e : Prog σ ε α).Keeps I :=
  fun _ hi => leads_need.mpr ⟨fun _ _ => hi, fun _ => hi⟩

theorem keeps_lift {x : Except ε α} : (lift x : Prog σ ε α).Keeps I :=
  fun _ hi => leads_lift.mpr ⟨fun _ _ => hi, fun _ _ => hi⟩

theorem keeps_attempt {m : Prog σ ε α} (h : m.Keeps I) : (attempt m).Keeps I := fun s hi =>
  leads_attempt.mpr (h s hi)

theorem keeps_guarded {cleanup : Prog σ ε Unit} {m : Prog σ ε α} (hc : cleanup.Keeps I)
    (h : m.Keeps I) : (guarded cleanup m).Keeps I := fun s hi =>
  leads_guarded ((h s hi).mono (fun _ _ hi' => hi') (fun _ s' hi' => hc s' hi') (fun _ hi' => hi'))

/-- A guard lets an error through, once the cleanup has run. -/
theorem error_of_guarded {cleanup : Prog σ ε Unit} {m : Prog σ ε α} {s s' : σ} {e : ε}
    (h : guarded cleanup m s = (.error e, s')) :
    ∃ s₁, m s = (.error e, s₁) ∧ (cleanup s₁).2 = s' := by
  obtain h | ⟨r, s₁, hr, h⟩ := bind_eq_error.mp h
  · exact absurd h attempt_ne_error
  obtain ⟨a, rfl, -⟩ | ⟨e', rfl, hm⟩ := attempt_eq_ok.mp hr
  · cases h
  obtain h | ⟨r', s₂, hr', h⟩ := bind_eq_error.mp h
  · exact absurd h attempt_ne_error
  cases h
  obtain ⟨_, -, hcleanup⟩ | ⟨_, -, hcleanup⟩ := attempt_eq_ok.mp hr'
  · exact ⟨s₁, hm, by rw [hcleanup]⟩
  · exact ⟨s₁, hm, by rw [hcleanup]⟩

theorem ok_of_guarded {cleanup : Prog σ ε Unit} {m : Prog σ ε α} {s s' : σ} {a : α}
    (h : guarded cleanup m s = (.ok a, s')) : m s = (.ok a, s') := by
  obtain ⟨r, s₁, hr, h⟩ := bind_eq_ok.mp h
  obtain ⟨a', rfl, hm⟩ | ⟨e, rfl, -⟩ := attempt_eq_ok.mp hr
  · cases h
    exact hm
  · obtain ⟨_, _, -, h⟩ := bind_eq_ok.mp h
    cases h

theorem keeps_ite {c : Prop} [Decidable c] {m m' : Prog σ ε α} (h : c → m.Keeps I)
    (h' : ¬ c → m'.Keeps I) : (if c then m else m').Keeps I := fun s hi =>
  leads_ite (fun hc => h hc s hi) (fun hc => h' hc s hi)

/-- **Going on after a program with an invariant**, knowing what else its run
leads to. -/
theorem Leads.then_keeping {m : Prog σ ε α} {f : α → Prog σ ε β} {Q : β → σ → Prop}
    {F : ε → σ → Prop} (h : m.Leads s K E D) (hm : m.Keeps I) (hi : I s)
    (hf : ∀ a s', K a s' → I s' → (f a).Leads s' Q F I)
    (hE : ∀ e s', E e s' → I s' → F e s') : (m >>= f).Leads s Q F I :=
  leads_bind.mpr ((h.and (hm s hi)).mono (fun a s' ha => hf a s' ha.1 ha.2)
    (fun e s' he => hE e s' he.1 he.2) (fun _ hd => hd.2))

end Keeps

/-! ## The errors of a program -/

/-- Every error the program can end with, from any state, is one of `B`. -/
def Faults (m : Prog σ ε α) (B : ε → Prop) : Prop :=
  ∀ s, m.Leads s (fun _ _ => True) (fun e _ => B e) (fun _ => True)

section Faults

variable {B : ε → Prop}

theorem faults_pure (a : α) : (pure a : Prog σ ε α).Faults B := fun _ =>
  (leads_pure a).mpr trivial

theorem faults_fail {e : ε} (h : B e) : (fail e : Prog σ ε α).Faults B := fun _ =>
  (leads_fail e).mpr h

theorem faults_get : (get : Prog σ ε σ).Faults B := fun _ => leads_get.mpr trivial

theorem faults_modify {f : σ → σ} : (modify f : Prog σ ε Unit).Faults B := fun _ =>
  leads_modify.mpr trivial

/-- Errors of a sequence are errors of its parts. -/
theorem Faults.bind {m : Prog σ ε α} {f : α → Prog σ ε β} (h : m.Faults B)
    (hf : ∀ a, (f a).Faults B) : (m >>= f).Faults B := fun s =>
  leads_bind.mpr ((h s).mono (fun a s' _ => hf a s') (fun _ _ he => he) (fun _ _ => trivial))

theorem faults_ensure {c : Prop} [Decidable c] {e : ε} (h : B e) :
    (ensure c e : Prog σ ε Unit).Faults B := fun _ =>
  leads_ensure.mpr ⟨fun _ => trivial, fun _ => h⟩

theorem faults_need {o : Option α} {e : ε} (h : B e) : (need o e : Prog σ ε α).Faults B :=
  fun _ => leads_need.mpr ⟨fun _ _ => trivial, fun _ => h⟩

theorem faults_lift {x : Except ε α} (h : ∀ e, x = .error e → B e) :
    (lift x : Prog σ ε α).Faults B := fun _ => leads_lift.mpr ⟨fun _ _ => trivial, h⟩

/-- A caught error is none. -/
theorem faults_attempt (m : Prog σ ε α) : (attempt m).Faults B := fun s =>
  leads_attempt.mpr (m.leads_true s)

theorem faults_ite {c : Prop} [Decidable c] {m m' : Prog σ ε α} (h : m.Faults B)
    (h' : m'.Faults B) : (if c then m else m').Faults B := fun s =>
  leads_ite (fun _ => h s) (fun _ => h' s)

/-- What a run leads to, with what its errors are. -/
theorem Leads.with_faults {m : Prog σ ε α} (h : m.Leads s K E D) (hB : m.Faults B) :
    m.Leads s K (fun e s' => E e s' ∧ B e) D :=
  (h.and (hB s)).mono (fun _ _ h => h.1) (fun _ _ h => h) (fun _ h => h.1)

end Faults

end Prog
