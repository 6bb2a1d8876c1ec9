import Lariska.Inventory
import Lariska.History

/-!
# Managed settings

With every heartbeat the server repeats the settings an operator chose for the
agent. The agent checks them as a whole before it takes any of them over, and
remembers two things so as not to take the same decision over twice: the
revision it has applied, and the settings last applied that came without one.
Neither memory is told when the other path changes what the agent runs on.
-/

namespace Lariska

def minIntervalSecs : Nat := 10
def maxIntervalSecs : Nat := 86400
def minManagedIntervalSecs : Nat := 10
def maxManagedIntervalSecs : Nat := 86400
def managedLogLevels : List String := ["error", "warn", "info", "debug", "trace"]

/-- The settings the agent runs on, in seconds. -/
structure Runtime where
  heartbeatInterval : Nat
  inventoryInterval : Nat
deriving DecidableEq

structure ManagedSettings where
  heartbeatIntervalSecs : Option Nat
  inventoryIntervalSecs : Option Nat
  logLevel : Option String
deriving DecidableEq

/-- What `apply_settings` reads of a directive. -/
structure ManagedDirective where
  managedSettings : Option ManagedSettings
  managedRevision : Option Nat
deriving DecidableEq

structure ValidatedManagedSettings where
  heartbeatInterval : Option Nat
  inventoryInterval : Option Nat
  logLevel : Option String
deriving DecidableEq

structure RejectedManagedSettings where
  revision : Option Nat
  settings : ManagedSettings
deriving DecidableEq

/-! ## Checks -/

/-- Why settings are rejected: the field and what it holds. -/
inductive SettingsError where
  | interval (name : String) (seconds : Nat)
  | logLevel (level : String)
deriving DecidableEq

/-- `validate_interval`, of the configuration. -/
def validateInterval (name : String) (seconds : Nat) : Except String Unit :=
  demand (minIntervalSecs ≤ seconds ∧ seconds ≤ maxIntervalSecs)
    (name ++ " must be between " ++ toString minIntervalSecs ++ " and " ++ toString maxIntervalSecs
      ++ " seconds")

/-- `validate_managed_interval`. -/
def validateManagedInterval (name : String) : Option Nat → Except SettingsError (Option Nat)
  | none => .ok none
  | some seconds =>
    if minManagedIntervalSecs ≤ seconds ∧ seconds ≤ maxManagedIntervalSecs then .ok (some seconds)
    else .error (.interval name seconds)

/-- `validate_managed_log_level`. -/
def validateManagedLogLevel (level : String) : Except SettingsError String :=
  let normalized := toAsciiLowercase (String.ofList (trim level))
  if normalized ∈ managedLogLevels then .ok normalized else .error (.logLevel level)

/-- `validate_managed_settings`. -/
def validateManagedSettings (settings : ManagedSettings) :
    Except SettingsError ValidatedManagedSettings := do
  let heartbeatInterval ←
    validateManagedInterval "heartbeat_interval_secs" settings.heartbeatIntervalSecs
  let inventoryInterval ←
    validateManagedInterval "inventory_interval_secs" settings.inventoryIntervalSecs
  let logLevel ← settings.logLevel.mapM validateManagedLogLevel
  pure ⟨heartbeatInterval, inventoryInterval, logLevel⟩

/-! ## Applying a directive -/

/-- What applying settings reads and writes in the process. -/
structure Managed where
  /-- What the loops run on, published through a channel. -/
  runtime : Runtime
  /-- The level last given to the logger by the server. -/
  logLevel : Option String
  lastRejected : Option RejectedManagedSettings
  lastUnversioned : Option ManagedSettings
deriving DecidableEq

namespace Managed

/-- `remember_rejected_settings`. -/
def rememberRejected (m : Managed) (revision : Option Nat) (settings : ManagedSettings) : Managed :=
  { m with lastRejected := some ⟨revision, settings⟩ }

/-- What has been validated is taken over. -/
def publish (m : Managed) (validated : ValidatedManagedSettings) : Managed :=
  { m with
    runtime :=
      { heartbeatInterval := validated.heartbeatInterval.getD m.runtime.heartbeatInterval
        inventoryInterval := validated.inventoryInterval.getD m.runtime.inventoryInterval }
    logLevel := validated.logLevel.or m.logLevel }

/-- `apply_settings`: the revision then in force, and what it has done. -/
def applySettings (m : Managed) (directive : ManagedDirective) (applied : Option Nat) :
    Option Nat × Managed :=
  match directive.managedSettings with
  | none => (directive.managedRevision.or applied, m)
  | some settings =>
    if directive.managedRevision ≠ none ∧ applied = directive.managedRevision then (applied, m)
    else match validateManagedSettings settings with
      | .error _ => (applied, m.rememberRejected directive.managedRevision settings)
      | .ok validated =>
        let m := { m with lastRejected := none }
        if directive.managedRevision = none then
          if m.lastUnversioned = some settings then (applied, m)
          else (applied, { m with lastUnversioned := some settings }.publish validated)
        else (directive.managedRevision.or applied, m.publish validated)

end Managed

/-- The heartbeat loop between two beats. -/
structure HeartbeatLoop where
  managed : Managed
  applied : Option Nat
deriving DecidableEq

namespace HeartbeatLoop

/-- A beat that is answered with a directive. -/
def beat (σ : HeartbeatLoop) (directive : ManagedDirective) : HeartbeatLoop :=
  let (applied, managed) := σ.managed.applySettings directive σ.applied
  ⟨managed, applied⟩

/-- The histories of the loop: one directive after the other. -/
abbrev Beats (init : HeartbeatLoop → Prop) : Past HeartbeatLoop ManagedDirective → HeartbeatLoop →
    Prop :=
  History init fun _ σ directive σ' => σ.beat directive = σ'

/-- The loop as a process starts it: nothing applied, nothing remembered. -/
structure Fresh (σ : HeartbeatLoop) : Prop where
  applied : σ.applied = none
  lastUnversioned : σ.managed.lastUnversioned = none

/-- ... from a validated configuration. -/
structure Configured (σ : HeartbeatLoop) : Prop extends σ.Fresh where
  inventory : validateInterval "inventory_interval" σ.managed.runtime.inventoryInterval = .ok ()
  heartbeat : validateInterval "heartbeat_interval" σ.managed.runtime.heartbeatInterval = .ok ()

end HeartbeatLoop

end Lariska
