import Lariska.Spool

/-!
# When the inventory is collected

The inventory loop waits before its first collection and between two of them.
Both delays carry a jitter, which spreads the agents of a fleet: it is drawn
from the hash of the agent's id, so that an agent keeps its place, and it is
at most a tenth of the interval. On battery the interval is four times as
long, and no interval is longer than a day.

The jitter has the room which the interval leaves below that day, so that a
delay on battery, which has less of it, may carry less jitter than one on
mains. It is never the shorter of the two all the same.

Times are in seconds, as intervals are configured. Division panics at zero,
and a panic is no value here.
-/

namespace Lariska

open Spool (saturatingAdd)

def batteryIntervalMultiplier : Nat := 4
def maxEffectiveInventoryInterval : Nat := 86400
def maxStartupJitter : Nat := 300
def inventoryJitterDivisor : Nat := 10

/-- `u64::saturating_mul`. -/
def saturatingMul (a b : Nat) : Nat := min (a * b) (2 ^ 64 - 1)

/-- `/`, which panics when it divides by zero. -/
def checkedDiv (a b : Nat) : Option Nat := if b = 0 then none else some (a / b)

/-- `%`, which panics when it divides by zero. -/
def checkedRem (a b : Nat) : Option Nat := if b = 0 then none else some (a % b)

section Delays

variable (sha256 : Bytes → Vector UInt8 32)

/-- The first eight bytes of the hash of the agent's id, read big-endian. -/
def hashPrefix (agentId : String) : Nat :=
  ((sha256 (Json.bytes agentId)).toList.take 8).foldl (fun n b => 256 * n + b.toNat) 0

/-- `stable_jitter_secs`. -/
def stableJitterSecs (agentId : String) (maxSecs : Nat) : Option Nat :=
  if maxSecs = 0 then some 0
  else checkedRem (hashPrefix sha256 agentId) (saturatingAdd maxSecs 1)

/-- `startup_inventory_delay`. -/
def startupInventoryDelay (base : Nat) (agentId : String) : Option Nat := do
  let tenth ← checkedDiv base inventoryJitterDivisor
  stableJitterSecs sha256 agentId (min tenth maxStartupJitter)

/-- `scheduled_inventory_delay`. -/
def scheduledInventoryDelay (base : Nat) (agentId : String) (onBattery : Bool) : Option Nat := do
  let multiplier := if onBattery then batteryIntervalMultiplier else 1
  let effectiveSecs := min (saturatingMul base multiplier) maxEffectiveInventoryInterval
  let jitterRoom := maxEffectiveInventoryInterval - effectiveSecs
  let tenth ← checkedDiv effectiveSecs inventoryJitterDivisor
  let jitterSecs ← stableJitterSecs sha256 agentId (min tenth jitterRoom)
  pure (saturatingAdd effectiveSecs jitterSecs)

end Delays

variable {sha256 : Bytes → Vector UInt8 32} {agentId : String} {base limit : Nat}

/-! ## In exact arithmetic -/

/-- The jitter of an agent within a limit. -/
def jitter (sha256 : Bytes → Vector UInt8 32) (agentId : String) (limit : Nat) : Nat :=
  hashPrefix sha256 agentId % (limit + 1)

theorem jitter_le : jitter sha256 agentId limit ≤ limit :=
  Nat.le_of_lt_succ (Nat.mod_lt _ (Nat.succ_pos limit))

/-- Nothing is divided by zero, and no jitter is more than its limit. -/
theorem stableJitterSecs_eq (h : limit ≤ maxEffectiveInventoryInterval) :
    stableJitterSecs sha256 agentId limit = some (jitter sha256 agentId limit) := by
  unfold stableJitterSecs jitter
  by_cases hzero : limit = 0
  · rw [if_pos hzero, hzero, Nat.zero_add, Nat.mod_one]
  · have hexact : saturatingAdd limit 1 = limit + 1 := by
      unfold maxEffectiveInventoryInterval at h
      unfold saturatingAdd
      omega
    rw [if_neg hzero, hexact]
    show (if limit + 1 = 0 then none else _) = _
    rw [if_neg (Nat.succ_ne_zero limit)]

theorem startupInventoryDelay_eq :
    startupInventoryDelay sha256 base agentId
      = some (jitter sha256 agentId (min (base / 10) maxStartupJitter)) := by
  have hlimit : min (base / 10) maxStartupJitter ≤ maxEffectiveInventoryInterval :=
    (min_le_right _ _).trans (by decide)
  show stableJitterSecs sha256 agentId _ = _
  exact stableJitterSecs_eq hlimit

/-- The room for the jitter of an interval: a tenth of it, within the day. -/
def jitterLimit (effectiveSecs : Nat) : Nat :=
  min (effectiveSecs / 10) (maxEffectiveInventoryInterval - effectiveSecs)

theorem scheduledInventoryDelay_eq {onBattery : Bool} {effectiveSecs : Nat}
    (heffective : effectiveSecs = min (base * if onBattery then 4 else 1) 86400) :
    scheduledInventoryDelay sha256 base agentId onBattery
      = some (effectiveSecs + jitter sha256 agentId (jitterLimit effectiveSecs)) := by
  have hlimit : jitterLimit effectiveSecs ≤ maxEffectiveInventoryInterval - effectiveSecs :=
    min_le_right _ _
  have hday : effectiveSecs ≤ maxEffectiveInventoryInterval := by
    rw [heffective]
    exact min_le_right _ _
  have hexact : min (saturatingMul base (if onBattery then batteryIntervalMultiplier else 1))
      maxEffectiveInventoryInterval = effectiveSecs := by
    unfold saturatingMul batteryIntervalMultiplier maxEffectiveInventoryInterval
    omega
  have hsum : saturatingAdd effectiveSecs (jitter sha256 agentId (jitterLimit effectiveSecs))
      = effectiveSecs + jitter sha256 agentId (jitterLimit effectiveSecs) := by
    have hjitter : jitter sha256 agentId (jitterLimit effectiveSecs) ≤ jitterLimit effectiveSecs :=
      jitter_le
    unfold maxEffectiveInventoryInterval at hday hlimit
    unfold saturatingAdd
    omega
  show (do
    let jitterSecs ← stableJitterSecs sha256 agentId (min
      (min (saturatingMul base (if onBattery then batteryIntervalMultiplier else 1))
        maxEffectiveInventoryInterval / 10) _)
    pure (saturatingAdd _ jitterSecs)) = _
  rw [hexact]
  show (stableJitterSecs sha256 agentId (jitterLimit effectiveSecs) >>= _) = _
  rw [stableJitterSecs_eq (hlimit.trans (Nat.sub_le _ _))]
  exact congrArg some hsum

/-- **The schedule of an agent.** For every interval that can be configured,
the delay between two collections is at least that interval and at most a day,
on mains and on battery, and on battery it is no shorter; the jitter is at most
a tenth of the effective interval, and the first collection comes within five
minutes and within a tenth of the interval. The delays are what exact
arithmetic makes of them. -/
theorem schedule_bounded (sha256 : Bytes → Vector UInt8 32) (agentId : String) {base : Nat}
    (hmin : 10 ≤ base) (hmax : base ≤ 86400) :
    ∃ mains battery startup,
      scheduledInventoryDelay sha256 base agentId false = some mains ∧
      scheduledInventoryDelay sha256 base agentId true = some battery ∧
      startupInventoryDelay sha256 base agentId = some startup ∧
      base ≤ mains ∧ mains ≤ battery ∧ battery ≤ 86400 ∧
      (∃ j, mains = base + j ∧ j ≤ base / 10) ∧
      (∃ j, battery = min (base * 4) 86400 + j ∧ j ≤ min (base * 4) 86400 / 10) ∧
      startup ≤ min 300 (base / 10) := by
  have hbase : base = min (base * if false then 4 else 1) 86400 := by
    rw [if_neg Bool.false_ne_true, Nat.mul_one, min_eq_left hmax]
  have hslow : min (base * 4) 86400 = min (base * if true then 4 else 1) 86400 := rfl
  have hmains : jitter sha256 agentId (jitterLimit base) ≤ min (base / 10) (86400 - base) := jitter_le
  have hbattery : jitter sha256 agentId (jitterLimit (min (base * 4) 86400))
      ≤ min (min (base * 4) 86400 / 10) (86400 - min (base * 4) 86400) := jitter_le
  have hstartup : jitter sha256 agentId (min (base / 10) maxStartupJitter) ≤ min (base / 10) 300 :=
    jitter_le
  refine ⟨_, _, _, scheduledInventoryDelay_eq hbase, scheduledInventoryDelay_eq hslow,
    startupInventoryDelay_eq, Nat.le_add_right _ _, ?_, ?_, ⟨_, rfl, ?_⟩, ⟨_, rfl, ?_⟩, ?_⟩
  -- Four times the interval has room for a tenth of it, unless it is cut to a day.
  · show base + _ ≤ min (base * 4) 86400 + _
    omega
  · show min (base * 4) 86400 + _ ≤ 86400
    omega
  · exact hmains.trans (min_le_left _ _)
  · exact hbattery.trans (min_le_left _ _)
  · exact hstartup.trans (le_of_eq (min_comm _ _))

namespace Sample

/-- The schedule of an agent that collects hourly. -/
theorem hourly_schedule_bounded :
    10 ≤ 3600 ∧ 3600 ≤ 86400 ∧ ∃ mains battery startup,
      scheduledInventoryDelay (fun _ => Vector.replicate 32 7) 3600 "agent" false = some mains ∧
      scheduledInventoryDelay (fun _ => Vector.replicate 32 7) 3600 "agent" true = some battery ∧
      startupInventoryDelay (fun _ => Vector.replicate 32 7) 3600 "agent" = some startup ∧
      3600 ≤ mains ∧ mains ≤ battery ∧ battery ≤ 86400 ∧
      (∃ j, mains = 3600 + j ∧ j ≤ 3600 / 10) ∧
      (∃ j, battery = min (3600 * 4) 86400 + j ∧ j ≤ min (3600 * 4) 86400 / 10) ∧
      startup ≤ min 300 (3600 / 10) :=
  ⟨by decide, by decide, schedule_bounded _ _ (by decide) (by decide)⟩

end Sample

end Lariska
