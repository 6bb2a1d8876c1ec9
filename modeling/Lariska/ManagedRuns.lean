import Lariska.ReleaseManifest
import Lariska.ManagedSettings

/-!
# What the agent runs on

Over a whole run of the heartbeat loop. Whatever the server asks for, the
intervals stay within their bounds, settings that do not check change nothing,
and no revision is reported as applied of which the settings were rejected.

A directive that is not new is not taken over again, and this is where the two
memories of the loop fail to know of each other: settings repeated without a
revision are skipped even when a revision has changed what they set in between,
and a revision repeated is skipped even when settings without one have. What
the server asks for is then not what the agent runs on, and only then.
-/

namespace Lariska

/-! ## What is asked for -/

/-- The intervals that are managed. -/
inductive Interval where
  | heartbeat
  | inventory
deriving DecidableEq

instance : Fintype Interval := ⟨{.heartbeat, .inventory}, fun i => by cases i <;> decide⟩

namespace Runtime

def interval (r : Runtime) : Interval → Nat
  | .heartbeat => r.heartbeatInterval
  | .inventory => r.inventoryInterval

/-- Between ten seconds and a day. -/
def Bounded (r : Runtime) : Prop := ∀ i, 10 ≤ r.interval i ∧ r.interval i ≤ 86400

end Runtime

namespace ManagedSettings

def interval (settings : ManagedSettings) : Interval → Option Nat
  | .heartbeat => settings.heartbeatIntervalSecs
  | .inventory => settings.inventoryIntervalSecs

/-- **Settings of which every field is valid.** -/
structure Valid (settings : ManagedSettings) : Prop where
  interval : ∀ i, ∀ s ∈ settings.interval i, 10 ≤ s ∧ s ≤ 86400
  logLevel : ∀ level ∈ settings.logLevel,
    toAsciiLowercase (String.ofList (trim level)) ∈ managedLogLevels

instance (settings : ManagedSettings) : Decidable settings.Valid :=
  decidable_of_iff
    ((∀ i, ∀ s ∈ settings.interval i, 10 ≤ s ∧ s ≤ 86400) ∧
      ∀ level ∈ settings.logLevel,
        toAsciiLowercase (String.ofList (trim level)) ∈ managedLogLevels)
    ⟨fun h => ⟨h.1, h.2⟩, fun h => ⟨h.interval, h.logLevel⟩⟩

end ManagedSettings

theorem validateManagedInterval_eq_ok {name : String} {seconds value : Option Nat} :
    validateManagedInterval name seconds = .ok value ↔
      (∀ s ∈ seconds, 10 ≤ s ∧ s ≤ 86400) ∧ value = seconds := by
  unfold validateManagedInterval
  cases seconds with
  | none => simp [eq_comm]
  | some seconds =>
    show (if 10 ≤ seconds ∧ seconds ≤ 86400 then _ else _) = _ ↔ _
    split <;> simp_all [eq_comm]

theorem validateManagedLogLevel_eq_ok {level value : String} :
    validateManagedLogLevel level = .ok value ↔
      toAsciiLowercase (String.ofList (trim level)) ∈ managedLogLevels ∧
        value = toAsciiLowercase (String.ofList (trim level)) := by
  simp only [validateManagedLogLevel]
  split <;> simp_all [eq_comm]

theorem mapM_validateManagedLogLevel_eq_ok {level value : Option String} :
    level.mapM validateManagedLogLevel = .ok value ↔
      (∀ l ∈ level, toAsciiLowercase (String.ofList (trim l)) ∈ managedLogLevels) ∧
        value = level.map fun l => toAsciiLowercase (String.ofList (trim l)) := by
  cases level with
  | none => simp [pure, Except.pure, eq_comm]
  | some level =>
    rw [Option.mapM_some]
    cases h : validateManagedLogLevel level with
    | error e =>
      have hinvalid : toAsciiLowercase (String.ofList (trim level)) ∉ managedLogLevels :=
        fun hvalid => by simpa [h] using validateManagedLogLevel_eq_ok.mpr ⟨hvalid, rfl⟩
      simp [hinvalid]
    | ok normalized =>
      obtain ⟨hvalid, rfl⟩ := validateManagedLogLevel_eq_ok.mp h
      simp [hvalid, eq_comm]

/-- **The check admits valid settings**, and gives back what they ask for. -/
theorem validateManagedSettings_eq_ok {settings : ManagedSettings}
    {validated : ValidatedManagedSettings} :
    validateManagedSettings settings = .ok validated ↔
      settings.Valid ∧ validated =
        ⟨settings.heartbeatIntervalSecs, settings.inventoryIntervalSecs,
          settings.logLevel.map fun l => toAsciiLowercase (String.ofList (trim l))⟩ := by
  constructor
  · intro h
    obtain ⟨heartbeat, h₁, h⟩ := Except.bind_eq_ok.mp h
    obtain ⟨inventory, h₂, h⟩ := Except.bind_eq_ok.mp h
    obtain ⟨level, h₃, h⟩ := Except.bind_eq_ok.mp h
    obtain ⟨hheartbeat, rfl⟩ := validateManagedInterval_eq_ok.mp h₁
    obtain ⟨hinventory, rfl⟩ := validateManagedInterval_eq_ok.mp h₂
    obtain ⟨hlevel, rfl⟩ := mapM_validateManagedLogLevel_eq_ok.mp h₃
    refine ⟨⟨fun i => ?_, hlevel⟩, (Except.ok.inj h).symm⟩
    cases i
    · exact hheartbeat
    · exact hinventory
  · rintro ⟨hvalid, rfl⟩
    refine Except.bind_eq_ok.mpr ⟨_, validateManagedInterval_eq_ok.mpr
      ⟨hvalid.interval .heartbeat, rfl⟩, ?_⟩
    refine Except.bind_eq_ok.mpr ⟨_, validateManagedInterval_eq_ok.mpr
      ⟨hvalid.interval .inventory, rfl⟩, ?_⟩
    exact Except.bind_eq_ok.mpr ⟨_, mapM_validateManagedLogLevel_eq_ok.mpr
      ⟨hvalid.logLevel, rfl⟩, rfl⟩

/-- Settings that are not valid are rejected. -/
theorem exists_validateManagedSettings {settings : ManagedSettings} (h : ¬ settings.Valid) :
    ∃ e, validateManagedSettings settings = .error e := by
  cases hv : validateManagedSettings settings with
  | error e => exact ⟨e, rfl⟩
  | ok validated => exact absurd (validateManagedSettings_eq_ok.mp hv).1 h

/-! ## What a beat does -/

namespace ManagedDirective

/-- A directive without settings, or with valid ones. -/
def Valid (d : ManagedDirective) : Prop := ∀ settings ∈ d.managedSettings, settings.Valid

instance : DecidablePred Valid := fun d =>
  inferInstanceAs (Decidable (∀ settings ∈ d.managedSettings, settings.Valid))

/-- What valid settings ask an interval to be. -/
def mention (d : ManagedDirective) (i : Interval) : Option Nat :=
  d.managedSettings.bind fun settings => if settings.Valid then settings.interval i else none

theorem mention_of_some {d : ManagedDirective} {settings : ManagedSettings}
    (h : d.managedSettings = some settings) (hvalid : settings.Valid) (i : Interval) :
    d.mention i = settings.interval i := by
  simp [mention, h, hvalid]

theorem mention_of_invalid {d : ManagedDirective} (h : ¬ d.Valid) (i : Interval) :
    d.mention i = none := by
  obtain ⟨settings, hs, hinvalid⟩ : ∃ settings, d.managedSettings = some settings ∧
      ¬ settings.Valid := by simpa [Valid] using h
  simp [mention, hs, hinvalid]

end ManagedDirective

namespace HeartbeatLoop

variable {σ : HeartbeatLoop} {d : ManagedDirective}

def interval (σ : HeartbeatLoop) (i : Interval) : Nat := σ.managed.runtime.interval i

/-- **A directive the loop takes for one it has applied**: its revision is the
one applied, or it has none and the settings last applied without one. -/
def Repeats (σ : HeartbeatLoop) (d : ManagedDirective) : Prop :=
  match d.managedRevision with
  | some revision => σ.applied = some revision
  | none => d.managedSettings ≠ none ∧ σ.managed.lastUnversioned = d.managedSettings

instance (σ : HeartbeatLoop) (d : ManagedDirective) : Decidable (σ.Repeats d) := by
  unfold Repeats
  cases d.managedRevision <;> infer_instance

/-- A directive without settings changes nothing but the revision. -/
theorem beat_none (h : d.managedSettings = none) :
    σ.beat d = { σ with applied := d.managedRevision.or σ.applied } := by
  simp [beat, Managed.applySettings, h]

/-- A directive that is not valid is remembered as rejected, if at all. -/
theorem beat_invalid (h : ¬ d.Valid) :
    ∃ lastRejected, σ.beat d = { σ with managed := { σ.managed with lastRejected } } := by
  obtain ⟨settings, hs, hinvalid⟩ : ∃ settings, d.managedSettings = some settings ∧
      ¬ settings.Valid := by simpa [ManagedDirective.Valid] using h
  obtain ⟨e, he⟩ := exists_validateManagedSettings hinvalid
  simp only [beat, Managed.applySettings, hs, he]
  split_ifs
  · exact ⟨_, rfl⟩
  · exact ⟨_, rfl⟩

/-- A directive that repeats another clears what was rejected, at most. -/
theorem beat_repeats (h : d.Valid) (hrepeats : σ.Repeats d) :
    ∃ lastRejected, σ.beat d = { σ with managed := { σ.managed with lastRejected } } := by
  unfold Repeats at hrepeats
  cases hs : d.managedSettings with
  | none =>
    rw [beat_none hs]
    cases hr : d.managedRevision with
    | none => simp [hr, hs] at hrepeats
    | some revision =>
      rw [hr] at hrepeats
      refine ⟨σ.managed.lastRejected, ?_⟩
      rw [Option.some_or, ← show σ.applied = some revision from hrepeats]
  | some settings =>
    have hvalid := validateManagedSettings_eq_ok.mpr ⟨h settings hs, rfl⟩
    cases hr : d.managedRevision with
    | none =>
      have hlast : σ.managed.lastUnversioned = some settings := by simpa [hr, hs] using hrepeats
      exact ⟨none, by simp [beat, Managed.applySettings, hs, hr, hvalid, hlast]⟩
    | some revision =>
      have happlied : σ.applied = some revision := by simpa [hr] using hrepeats
      exact ⟨σ.managed.lastRejected, by simp [beat, Managed.applySettings, hs, hr, happlied]⟩

/-- **A directive that is new and valid is taken over.** -/
theorem beat_new {settings : ManagedSettings} (hs : d.managedSettings = some settings)
    (h : settings.Valid) (hnew : ¬ σ.Repeats d) :
    (σ.beat d).applied = d.managedRevision.or σ.applied ∧
      (∀ i, (σ.beat d).interval i = (settings.interval i).getD (σ.interval i)) ∧
      (σ.beat d).managed.lastUnversioned =
        if d.managedRevision = none then some settings else σ.managed.lastUnversioned := by
  have hvalid := validateManagedSettings_eq_ok.mpr ⟨h, rfl⟩
  unfold Repeats at hnew
  cases hr : d.managedRevision with
  | none =>
    have hlast : σ.managed.lastUnversioned ≠ some settings := by simpa [hr, hs] using hnew
    refine ⟨?_, fun i => ?_, ?_⟩
    · simp [beat, Managed.applySettings, hs, hr, hvalid, hlast]
    · cases i <;>
        simp [beat, Managed.applySettings, hs, hr, hvalid, hlast, interval, Managed.publish,
          Runtime.interval, ManagedSettings.interval]
    · simp [beat, Managed.applySettings, hs, hr, hvalid, hlast, Managed.publish]
  | some revision =>
    have happlied : σ.applied ≠ some revision := by simpa [hr] using hnew
    refine ⟨?_, fun i => ?_, ?_⟩
    · simp [beat, Managed.applySettings, hs, hr, hvalid, happlied]
    · cases i <;>
        simp [beat, Managed.applySettings, hs, hr, hvalid, happlied, interval, Managed.publish,
          Runtime.interval, ManagedSettings.interval]
    · simp [beat, Managed.applySettings, hs, hr, hvalid, happlied, Managed.publish]

/-- The intervals after a beat. -/
theorem interval_beat (σ : HeartbeatLoop) (d : ManagedDirective) (i : Interval) :
    (σ.beat d).interval i
      = if σ.Repeats d then σ.interval i else (d.mention i).getD (σ.interval i) := by
  by_cases hvalid : d.Valid
  · by_cases hrepeats : σ.Repeats d
    · obtain ⟨_, heq⟩ := beat_repeats hvalid hrepeats
      rw [if_pos hrepeats, heq]
      rfl
    · rw [if_neg hrepeats]
      cases hs : d.managedSettings with
      | none =>
        rw [beat_none hs]
        simp [ManagedDirective.mention, hs, interval]
      | some settings =>
        rw [(beat_new hs (hvalid settings hs) hrepeats).2.1,
          ManagedDirective.mention_of_some hs (hvalid settings hs)]
  · obtain ⟨_, heq⟩ := beat_invalid (σ := σ) hvalid
    rw [heq]
    simp [ManagedDirective.mention_of_invalid hvalid, interval]

/-- The revision after a beat: that of the directive if it is valid. -/
theorem applied_beat (σ : HeartbeatLoop) (d : ManagedDirective) :
    (σ.beat d).applied = if d.Valid then d.managedRevision.or σ.applied else σ.applied := by
  by_cases hvalid : d.Valid
  · rw [if_pos hvalid]
    by_cases hrepeats : σ.Repeats d
    · obtain ⟨_, heq⟩ := beat_repeats hvalid hrepeats
      rw [heq]
      unfold Repeats at hrepeats
      cases hr : d.managedRevision with
      | none => rw [Option.none_or]
      | some revision =>
        rw [hr] at hrepeats
        exact hrepeats
    · cases hs : d.managedSettings with
      | none => rw [beat_none hs]
      | some settings => exact (beat_new hs (hvalid settings hs) hrepeats).1
  · obtain ⟨_, heq⟩ := beat_invalid (σ := σ) hvalid
    rw [heq, if_neg hvalid]

/-- What is remembered as applied without a revision has been asked for. -/
theorem lastUnversioned_beat {settings : ManagedSettings}
    (h : (σ.beat d).managed.lastUnversioned = some settings) :
    d.managedSettings = some settings ∨ σ.managed.lastUnversioned = some settings := by
  by_cases hvalid : d.Valid
  · by_cases hrepeats : σ.Repeats d
    · obtain ⟨_, heq⟩ := beat_repeats hvalid hrepeats
      rw [heq] at h
      exact .inr h
    · cases hs : d.managedSettings with
      | none =>
        rw [beat_none hs] at h
        exact .inr h
      | some asked =>
        rw [(beat_new hs (hvalid asked hs) hrepeats).2.2] at h
        split_ifs at h
        · exact .inl h
        · exact .inr h
  · obtain ⟨_, heq⟩ := beat_invalid (σ := σ) hvalid
    rw [heq] at h
    exact .inr h

/-! ## What the memories recall -/

variable {past : Past HeartbeatLoop ManagedDirective} {init : HeartbeatLoop → Prop}

/-- The directives of a history, newest first. -/
def directives (past : Past HeartbeatLoop ManagedDirective) : List ManagedDirective :=
  past.map Prod.fst

/-- What is remembered has come with a directive. -/
structure Recalls (past : Past HeartbeatLoop ManagedDirective) (σ : HeartbeatLoop) : Prop where
  applied : ∀ revision, σ.applied = some revision →
    ∃ d ∈ directives past, d.managedRevision = some revision ∧ d.Valid
  unversioned : ∀ settings, σ.managed.lastUnversioned = some settings →
    ∃ d ∈ directives past, d.managedSettings = some settings

theorem Recalls.beat (h : Recalls past σ) (d : ManagedDirective) :
    Recalls ((d, σ) :: past) (σ.beat d) where
  applied := by
    intro revision hr
    rw [applied_beat] at hr
    have hpast : σ.applied = some revision →
        ∃ d' ∈ directives ((d, σ) :: past), d'.managedRevision = some revision ∧ d'.Valid := by
      intro hr
      obtain ⟨d', hd', hvalid⟩ := h.applied revision hr
      exact ⟨d', List.mem_cons_of_mem _ hd', hvalid⟩
    by_cases hvalid : d.Valid
    · rw [if_pos hvalid, Option.or_eq_some_iff] at hr
      obtain hr | ⟨-, hr⟩ := hr
      · exact ⟨d, List.mem_cons_self, hr, hvalid⟩
      · exact hpast hr
    · rw [if_neg hvalid] at hr
      exact hpast hr
  unversioned := by
    intro settings hs
    obtain hs | hs := lastUnversioned_beat hs
    · exact ⟨d, List.mem_cons_self, hs⟩
    · obtain ⟨d', hd', hs'⟩ := h.unversioned settings hs
      exact ⟨d', List.mem_cons_of_mem _ hd', hs'⟩

/-- **The memories of a loop that starts afresh** recall what it was told. -/
theorem Beats.recalls (hinit : ∀ σ, init σ → σ.Fresh) (h : Beats init past σ) : Recalls past σ := by
  refine h.invariant' (fun σ h₀ => ?_) fun past σ d σ' hrecalls hbeat => hbeat ▸ hrecalls.beat d
  constructor
  · simp [(hinit σ h₀).applied]
  · simp [(hinit σ h₀).lastUnversioned]

/-! ## Within bounds -/

theorem validateInterval_eq_ok {name : String} {seconds : Nat} :
    validateInterval name seconds = .ok () ↔ 10 ≤ seconds ∧ seconds ≤ 86400 := by
  unfold validateInterval demand
  show (if 10 ≤ seconds ∧ seconds ≤ 86400 then _ else _) = _ ↔ _
  split <;> simp_all

theorem Configured.bounded (h : σ.Configured) : σ.managed.runtime.Bounded := by
  intro i
  cases i
  · exact validateInterval_eq_ok.mp h.heartbeat
  · exact validateInterval_eq_ok.mp h.inventory

/-- What a directive asks for is within bounds. -/
theorem bounded_mention {i : Interval} {s : Nat} (h : d.mention i = some s) :
    10 ≤ s ∧ s ≤ 86400 := by
  obtain ⟨settings, -, hi⟩ := Option.bind_eq_some_iff.mp h
  split_ifs at hi with hvalid
  exact hvalid.interval i s hi

theorem bounded_beat (h : σ.managed.runtime.Bounded) (d : ManagedDirective) :
    (σ.beat d).managed.runtime.Bounded := by
  intro i
  show 10 ≤ (σ.beat d).interval i ∧ (σ.beat d).interval i ≤ 86400
  rw [interval_beat]
  split_ifs
  · exact h i
  · cases hm : d.mention i with
    | none => exact h i
    | some s => exact bounded_mention hm

/-- **Managed settings are taken over whole or not at all.** After every run
from a validated configuration: both intervals have been between ten seconds
and a day in every state; no directive that is not valid has changed an
interval, the log level, the settings remembered or the revision; the revision
has only changed to that of a valid directive; and the one that is reported has
come with valid settings, or with none. -/
theorem managed_settings_sound (h : Beats Configured past σ) :
    (∀ σ' ∈ visited past σ, σ'.managed.runtime.Bounded) ∧
    Throughout (fun _ σ d => ¬ d.Valid →
      (σ.beat d).managed.runtime = σ.managed.runtime ∧
      (σ.beat d).managed.logLevel = σ.managed.logLevel ∧
      (σ.beat d).managed.lastUnversioned = σ.managed.lastUnversioned ∧
      (σ.beat d).applied = σ.applied) past ∧
    Throughout (fun _ σ d => (σ.beat d).applied ≠ σ.applied →
      d.Valid ∧ (σ.beat d).applied = d.managedRevision) past ∧
    ∀ revision, σ.applied = some revision →
      ∃ d ∈ directives past, d.managedRevision = some revision ∧ d.Valid := by
  refine ⟨fun σ' hσ' => ?_, h.throughout' fun past σ d _ _ _ hvalid => ?_,
    h.throughout' fun past σ d _ _ _ hne => ?_, (Beats.recalls (fun _ h => h.toFresh) h).applied⟩
  · obtain ⟨past', h'⟩ := h.of_visited hσ'
    exact h'.invariant' (fun _ h₀ => h₀.bounded) fun _ σ d _ hbounded hbeat =>
      hbeat ▸ bounded_beat hbounded d
  · obtain ⟨_, heq⟩ := beat_invalid (σ := σ) hvalid
    rw [heq]
    exact ⟨rfl, rfl, rfl, rfl⟩
  · rw [applied_beat] at hne ⊢
    by_cases hvalid : d.Valid
    · rw [if_pos hvalid] at hne ⊢
      refine ⟨hvalid, ?_⟩
      cases hr : d.managedRevision with
      | none => exact absurd (by rw [hr, Option.none_or]) hne
      | some revision => rw [Option.some_or]
    · exact absurd (if_neg hvalid) hne

/-! ## What is asked for and what is run on -/

/-- Equal revisions carry equal settings. -/
def Consistent (past : Past HeartbeatLoop ManagedDirective) : Prop :=
  ∀ d ∈ directives past, ∀ d' ∈ directives past, d.managedRevision ≠ none →
    d.managedRevision = d'.managedRevision → d.managedSettings = d'.managedSettings

instance : DecidablePred Consistent := fun past =>
  inferInstanceAs (Decidable (∀ d ∈ directives past, ∀ d' ∈ directives past, _ → _ → _))

/-- The agent runs on what valid settings ask for, and is otherwise unchanged. -/
def Obeyed (_ : Past HeartbeatLoop ManagedDirective) (σ : HeartbeatLoop) (d : ManagedDirective) :
    Prop :=
  ∀ settings, d.managedSettings = some settings → settings.Valid →
    ∀ i, (σ.beat d).managed.runtime.interval i
      = (settings.interval i).getD (σ.managed.runtime.interval i)

/-- What the server has last asked an interval to be. -/
def lastMention (past : Past HeartbeatLoop ManagedDirective) (i : Interval) : Option Nat :=
  (directives past).findSome? (·.mention i)

/-- **A directive is repeated while it is the last word**: no directive since
has asked the intervals it mentions to be anything else. -/
def LastWord (past : Past HeartbeatLoop ManagedDirective) (σ : HeartbeatLoop)
    (d : ManagedDirective) : Prop :=
  σ.Repeats d → ∀ i, d.mention i ≠ none → lastMention past i = d.mention i

instance (past : Past HeartbeatLoop ManagedDirective) (σ : HeartbeatLoop) (d : ManagedDirective) :
    Decidable (LastWord past σ d) := inferInstanceAs (Decidable (_ → ∀ _, _ → _))

/-- The agent runs on what it has last been asked to. -/
def Current (past : Past HeartbeatLoop ManagedDirective) (σ : HeartbeatLoop) : Prop :=
  ∀ i s, lastMention past i = some s → σ.interval i = s

theorem obeyed_iff : Obeyed past σ d ↔
    ∀ i, (σ.beat d).interval i = (d.mention i).getD (σ.interval i) := by
  constructor
  · intro h i
    by_cases hvalid : d.Valid
    · cases hs : d.managedSettings with
      | none =>
        rw [beat_none hs]
        simp [ManagedDirective.mention, hs, interval]
      | some settings =>
        rw [ManagedDirective.mention_of_some hs (hvalid settings hs)]
        exact h settings hs (hvalid settings hs) i
    · obtain ⟨_, heq⟩ := beat_invalid (σ := σ) hvalid
      rw [heq]
      simp [ManagedDirective.mention_of_invalid hvalid, interval]
  · intro h settings hs hvalid i
    rw [← ManagedDirective.mention_of_some hs hvalid]
    exact h i

/-- What a repeated directive mentions has been mentioned before. -/
theorem Recalls.mentioned (h : Recalls past σ) (hc : Consistent ((d, σ) :: past))
    (hrepeats : σ.Repeats d) {i : Interval} (hm : d.mention i ≠ none) :
    lastMention past i ≠ none := by
  obtain ⟨d', hd', hsettings⟩ : ∃ d' ∈ directives past, d'.managedSettings = d.managedSettings := by
    unfold Repeats at hrepeats
    cases hr : d.managedRevision with
    | none =>
      rw [hr] at hrepeats
      obtain ⟨settings, hs⟩ := Option.ne_none_iff_exists'.mp hrepeats.1
      obtain ⟨d', hd', hs'⟩ := h.unversioned settings (hrepeats.2.trans hs)
      exact ⟨d', hd', hs'.trans hs.symm⟩
    | some revision =>
      rw [hr] at hrepeats
      obtain ⟨d', hd', hr', -⟩ := h.applied revision hrepeats
      have hne : d'.managedRevision ≠ none := by simp [hr']
      exact ⟨d', hd', hc d' (List.mem_cons_of_mem _ hd') d List.mem_cons_self hne
        (hr'.trans hr.symm)⟩
  have hmention : d'.mention i = d.mention i := by
    unfold ManagedDirective.mention
    rw [hsettings]
  unfold lastMention
  rw [Ne, List.findSome?_eq_none_iff]
  intro hnone
  exact hm (hmention ▸ hnone d' hd')

/-- One beat: a directive is obeyed exactly when it is not repeated after
another has had the last word. -/
theorem obeyed_iff_lastWord (h : Recalls past σ) (hcurrent : Current past σ)
    (hc : Consistent ((d, σ) :: past)) : Obeyed past σ d ↔ LastWord past σ d := by
  rw [obeyed_iff]
  by_cases hrepeats : σ.Repeats d
  · have hstays : ∀ i, (σ.beat d).interval i = σ.interval i := fun i => by
      rw [interval_beat, if_pos hrepeats]
    have hword : LastWord past σ d ↔ ∀ i, d.mention i ≠ none → lastMention past i = d.mention i :=
      ⟨fun h => h hrepeats, fun h _ => h⟩
    rw [hword]
    refine forall_congr' fun i => ?_
    rw [hstays]
    cases hm : d.mention i with
    | none => simp
    | some s =>
      obtain ⟨last, hlast⟩ := Option.ne_none_iff_exists'.mp
        (h.mentioned hc hrepeats (i := i) (by simp [hm]))
      simp [hlast, hcurrent i last hlast]
  · have hfollows : ∀ i, (σ.beat d).interval i = (d.mention i).getD (σ.interval i) := fun i => by
      rw [interval_beat, if_neg hrepeats]
    exact ⟨fun _ h => absurd h hrepeats, fun _ => hfollows⟩

/-- A beat that obeys keeps the agent on what it has last been asked. -/
theorem Current.beat (h : Current past σ) (hobeyed : Obeyed past σ d) :
    Current ((d, σ) :: past) (σ.beat d) := by
  intro i s hs
  rw [obeyed_iff.mp hobeyed i]
  unfold lastMention directives at hs
  rw [List.map_cons, List.findSome?_cons] at hs
  cases hm : d.mention i with
  | none =>
    simp only [hm] at hs
    exact h i s hs
  | some t =>
    simp only [hm] at hs
    exact Option.some_inj.mp hs

theorem Consistent.of_cons {step : ManagedDirective × HeartbeatLoop}
    (h : Consistent (step :: past)) : Consistent past := fun d hd d' hd' =>
  h d (List.mem_cons_of_mem _ hd) d' (List.mem_cons_of_mem _ hd')

/-- As long as every directive is obeyed, the agent is up to date. -/
theorem Beats.current (h : Beats init past σ) (hobeyed : Throughout Obeyed past) :
    Current past σ :=
  h.invariant hobeyed (fun _ _ i s hs => by simp [lastMention, directives] at hs)
    fun _ _ _ _ hcurrent hobeyed hbeat => hbeat ▸ hcurrent.beat hobeyed

/-- **The server is obeyed as long as it repeats only its last word.** For every
run in which equal revisions carry equal settings, with revisions or without:
the agent runs, after every directive with valid settings, on what this asks,
exactly if no directive is repeated after another has asked otherwise. -/
theorem obeyed_exactly (h : Beats Fresh past σ) (hc : Consistent past) :
    Throughout Obeyed past ↔ Throughout LastWord past := by
  induction h with
  | start _ => simp
  | @next past σ σ' d h hbeat ih =>
    have hrecalls : Recalls past σ := Beats.recalls (fun _ h => h) h
    rw [throughout_cons, throughout_cons, ← ih hc.of_cons]
    exact and_congr_left fun hobeyed => obeyed_iff_lastWord hrecalls (Beats.current h hobeyed) hc

end HeartbeatLoop

/-! ## Two runs -/

namespace Sample

open HeartbeatLoop

/-- A loop as a process starts it, on one minute and one hour. -/
def started : HeartbeatLoop := ⟨⟨⟨60, 3600⟩, none, none, none⟩, none⟩

/-- A heartbeat every so many seconds, under a revision or none. -/
def everySecs (seconds : Nat) (revision : Option Nat) : ManagedDirective :=
  ⟨some ⟨some seconds, none, none⟩, revision⟩

/-- Directives one after the other. -/
def told (directives : List ManagedDirective) : Past HeartbeatLoop ManagedDirective × HeartbeatLoop :=
  directives.foldl (fun now d => ((d, now.2) :: now.1, now.2.beat d)) ([], started)

theorem told_beats {init : HeartbeatLoop → Prop} (h : init started)
    (directives : List ManagedDirective) :
    Beats init (told directives).1 (told directives).2 := by
  induction directives using List.reverseRecOn with
  | nil => exact .start h
  | append_singleton directives d ih =>
    unfold told
    rw [List.foldl_append]
    exact .next ih rfl

theorem fresh_started : started.Fresh := ⟨rfl, rfl⟩

theorem configured_started : started.Configured := ⟨fresh_started, by decide, by decide⟩

/-- Thirty seconds, a minute under revision 5, and thirty seconds again. -/
def backAndForth : List ManagedDirective :=
  [everySecs 30 none, everySecs 60 (some 5), everySecs 30 none]

/-- **The third directive is skipped**: it is the one last applied without a
revision, and the agent stays on a minute. -/
theorem stays_on_a_minute :
    Beats Fresh (told backAndForth).1 (told backAndForth).2 ∧ Consistent (told backAndForth).1 ∧
      (told backAndForth).2.managed.runtime.heartbeatInterval = 60 ∧
      ¬ Throughout Obeyed (told backAndForth).1 := by
  refine ⟨told_beats fresh_started _, by decide, by decide, fun h => ?_⟩
  have hlast := (throughout_cons.mp h).1 _ rfl (by decide) .heartbeat
  exact absurd hlast (by decide)

/-- ... and with a revision of its own it is taken over. -/
theorem back_to_half_a_minute : Throughout Obeyed
    (told [everySecs 30 none, everySecs 60 (some 5), everySecs 30 (some 6)]).1 :=
  (obeyed_exactly (told_beats fresh_started _) (by decide)).mpr (by decide)

/-- Revision 7 asks for five seconds and is rejected, revision 8 is applied. -/
def oneRejected : List ManagedDirective :=
  [everySecs 30 none, everySecs 5 (some 7), everySecs 20 (some 8)]

theorem one_rejected_bounded :
    (∀ σ' ∈ visited (told oneRejected).1 (told oneRejected).2, σ'.managed.runtime.Bounded) ∧
      ∃ d ∈ directives (told oneRejected).1, d.managedRevision = some 8 ∧ d.Valid :=
  have h := managed_settings_sound (told_beats configured_started oneRejected)
  ⟨h.1, h.2.2.2 8 (by decide)⟩

end Sample

end Lariska
