import Mathlib.Tactic

/-!
# Histories of labelled steps

A system moves from state to state by labelled steps, and what may happen
next can depend on what happened before: a guard may ask that an event has
or has not occurred. A *history* is the list of steps taken so far, newest
first, each with its label and the state it was taken from. `History` says
that a history with its present state is one the system can produce.

Two readings are needed of it. An invariant holds of every state a history
passes through (`History.invariant`); a property of steps holds at each step
taken (`History.throughout`). Both are proved under a condition on the steps,
`Throughout C`, since what a system guarantees is often guaranteed only of
the histories whose every step meets a condition.
-/

/-- The steps of a history: label and state before, newest first. -/
abbrev Past (σ ε : Type) : Type := List (ε × σ)

variable {σ ε : Type}

/-- **The histories of a system**: from a state `init` allows, each step
allowed by `step` given what came before. -/
inductive History (init : σ → Prop) (step : Past σ ε → σ → ε → σ → Prop) :
    Past σ ε → σ → Prop where
  | start {s : σ} : init s → History init step [] s
  | next {past : Past σ ε} {s s' : σ} {e : ε} :
      History init step past s → step past s e s' →
      History init step ((e, s) :: past) s'

/-- Every step of the history meets `C`, which reads what came before the
step, the state before it and its label. -/
def Throughout (C : Past σ ε → σ → ε → Prop) : Past σ ε → Prop
  | [] => True
  | (e, s) :: past => C past s e ∧ Throughout C past

/-- The states a history has passed through, the present one first. -/
def visited (past : Past σ ε) (s : σ) : List σ := s :: past.map Prod.snd

@[simp] theorem throughout_nil (C : Past σ ε → σ → ε → Prop) : Throughout C [] := trivial

@[simp] theorem throughout_cons {C : Past σ ε → σ → ε → Prop} {e : ε} {s : σ}
    {past : Past σ ε} :
    Throughout C ((e, s) :: past) ↔ C past s e ∧ Throughout C past := Iff.rfl

instance decidableThroughout (C : Past σ ε → σ → ε → Prop) [∀ past s e, Decidable (C past s e)] :
    DecidablePred (Throughout C)
  | [] => .isTrue trivial
  | (e, s) :: past =>
    haveI := decidableThroughout C past
    inferInstanceAs (Decidable (C past s e ∧ Throughout C past))

/-- A weaker condition is met by the same steps. -/
theorem Throughout.imp {C C' : Past σ ε → σ → ε → Prop} {past : Past σ ε}
    (h : Throughout C past) (hC : ∀ past s e, C past s e → C' past s e) :
    Throughout C' past := by
  induction past with
  | nil => trivial
  | cons x past ih => exact ⟨hC _ _ _ h.1, ih h.2⟩

/-- Two conditions met by every step are met together. -/
theorem Throughout.and {C C' : Past σ ε → σ → ε → Prop} {past : Past σ ε}
    (h : Throughout C past) (h' : Throughout C' past) :
    Throughout (fun past s e => C past s e ∧ C' past s e) past := by
  induction past with
  | nil => trivial
  | cons x past ih => exact ⟨⟨h.1, h'.1⟩, ih h.2 h'.2⟩

/-- What a list of events makes of a history, where each can happen. -/
def replay (step : σ → ε → Option σ) : List ε → Past σ ε × σ → Option (Past σ ε × σ)
  | [], now => some now
  | e :: es, (past, s) => (step s e).bind fun s' => replay step es ((e, s) :: past, s')

namespace History

variable {init : σ → Prop} {step : Past σ ε → σ → ε → σ → Prop} {past : Past σ ε} {s : σ}

/-- **The invariant rule.** What holds at the start, and is kept by each step
that meets the condition, holds after every history whose steps all meet it. -/
theorem invariant {I : Past σ ε → σ → Prop} {C : Past σ ε → σ → ε → Prop}
    (h : History init step past s) (hC : Throughout C past)
    (start : ∀ s, init s → I [] s)
    (keep : ∀ past s e s', I past s → C past s e → step past s e s' →
      I ((e, s) :: past) s') : I past s := by
  induction h with
  | start h0 => exact start _ h0
  | next _ hstep ih => exact keep _ _ _ _ (ih hC.2) hC.1 hstep

/-- The invariant rule when every step is admitted. -/
theorem invariant' {I : Past σ ε → σ → Prop}
    (h : History init step past s) (start : ∀ s, init s → I [] s)
    (keep : ∀ past s e s', I past s → step past s e s' → I ((e, s) :: past) s') :
    I past s := by
  induction h with
  | start h0 => exact start _ h0
  | next _ hstep ih => exact keep _ _ _ _ ih hstep

/-- **What an invariant gives each step, every step has.** -/
theorem throughout {I : Past σ ε → σ → Prop} {C P : Past σ ε → σ → ε → Prop}
    (h : History init step past s) (hC : Throughout C past)
    (inv : ∀ past s, History init step past s → Throughout C past → I past s)
    (gives : ∀ past s e s', I past s → C past s e → step past s e s' → P past s e) :
    Throughout P past := by
  induction h with
  | start _ => trivial
  | next h' hstep ih => exact ⟨gives _ _ _ _ (inv _ _ h' hC.2) hC.1 hstep, ih hC.2⟩

/-- What every step gives from the history before it, every step has. -/
theorem throughout' {P : Past σ ε → σ → ε → Prop} (h : History init step past s)
    (gives : ∀ past s e s', History init step past s → step past s e s' → P past s e) :
    Throughout P past := by
  induction h with
  | start _ => trivial
  | next h' hstep ih => exact ⟨gives _ _ _ _ h' hstep, ih⟩

/-- **A state a history passes through is the end of a history**: of the part
that leads to it. -/
theorem of_visited (h : History init step past s) {s' : σ} (hs : s' ∈ visited past s) :
    ∃ past', History init step past' s' := by
  induction h with
  | start h0 =>
    rw [visited, List.map_nil, List.mem_singleton] at hs
    exact ⟨[], hs ▸ .start h0⟩
  | next h' hstep ih =>
    rcases List.mem_cons.mp hs with rfl | hs
    · exact ⟨_, .next h' hstep⟩
    · exact ih hs

/-- **A history can be replayed.** -/
theorem of_replay {step : σ → ε → Option σ} {past' : Past σ ε} {s' : σ} {es : List ε}
    (h : History init (fun _ s e s' => step s e = some s') past s)
    (hr : replay step es (past, s) = some (past', s')) :
    History init (fun _ s e s' => step s e = some s') past' s' := by
  induction es generalizing past s with
  | nil =>
    cases hr
    exact h
  | cons e es ih =>
    obtain ⟨s₁, hstep, hr⟩ := Option.bind_eq_some_iff.mp hr
    exact ih (.next h hstep) hr

section Ordered

variable {r : σ → σ → Prop} {I : Past σ ε → σ → Prop}

/-- What no step lowers is highest in the present state. -/
theorem le_present (refl : ∀ s, r s s) (trans : ∀ {a b c}, r a b → r b c → r a c)
    (h : History init step past s)
    (inv : ∀ past s, History init step past s → I past s)
    (keep : ∀ past s e s', I past s → step past s e s' → r s s') :
    ∀ s' ∈ visited past s, r s' s := by
  induction h with
  | start _ =>
    intro s' hs'
    rw [visited, List.map_nil, List.mem_singleton] at hs'
    exact hs' ▸ refl _
  | next h' hstep ih =>
    intro s' hs'
    rcases List.mem_cons.mp hs' with rfl | hs'
    · exact refl _
    · exact trans (ih s' hs') (keep _ _ _ _ (inv _ _ h') hstep)

/-- **What no step lowers is ordered along the whole history.** -/
theorem pairwise_visited (refl : ∀ s, r s s) (trans : ∀ {a b c}, r a b → r b c → r a c)
    (h : History init step past s)
    (inv : ∀ past s, History init step past s → I past s)
    (keep : ∀ past s e s', I past s → step past s e s' → r s s') :
    (visited past s).Pairwise (fun later earlier => r earlier later) := by
  induction h with
  | start _ => exact List.pairwise_singleton _ _
  | next h' hstep ih =>
    refine List.pairwise_cons.mpr ⟨fun s' hs' => ?_, ih⟩
    exact trans (le_present refl trans h' inv keep s' hs') (keep _ _ _ _ (inv _ _ h') hstep)

end Ordered

end History

section Labels

variable {α : Type} {P : α → List α → Prop} {labels : List α} {label : α}

/-- Each label and those before it: before the first step there is none. -/
theorem each_before_nil : ∀ later e earlier, ([] : List α) = later ++ e :: earlier → P e earlier :=
  fun later _ _ heq => (List.append_ne_nil_of_right_ne_nil later (List.cons_ne_nil _ _) heq.symm).elim

theorem each_before_cons (h : P label labels)
    (hlabels : ∀ later e earlier, labels = later ++ e :: earlier → P e earlier) :
    ∀ later e earlier, label :: labels = later ++ e :: earlier → P e earlier := by
  intro later e earlier heq
  cases later with
  | nil =>
    obtain ⟨rfl, rfl⟩ := List.cons.inj heq
    exact h
  | cons _ later => exact hlabels later e earlier (List.cons.inj heq).2

end Labels

-- A run is long: a statement about all its steps is never unfolded to read it.
attribute [irreducible] Throughout
