import Lariska.ManagedRuns
import Lariska.SupervisorRuns

/-!
# The configuration of the agent

The configuration is read from a file. The environment may override most of it,
what neither says has a default, and then the whole is checked. It loads exactly
if the file and the variables can be read and every check holds
(`loads_iff`).
-/

namespace Lariska

open HeartbeatLoop (validateInterval_eq_ok)

/-! ## The code -/

def defaultInventoryIntervalSecs : Nat := 3600
def defaultHeartbeatIntervalSecs : Nat := 60
def defaultRequestTimeoutSecs : Nat := 30
def minTimeoutSecs : Nat := 1
def maxTimeoutSecs : Nat := 300
def defaultFullRefreshIntervalSecs : Nat := 86400
def defaultMaxSpoolEntries : Nat := 200
def minMaxSpoolEntries : Nat := 1
def maxMaxSpoolEntries : Nat := 10000

inductive ConfigError where
  | io (message : String)
  | invalid (message : String)
deriving DecidableEq

structure FileConfig where
  serverUrl : Option String
  provisioningKeyFile : Option String
  stateDir : Option String
  inventoryIntervalSecs : Option Nat
  heartbeatIntervalSecs : Option Nat
  requestTimeoutSecs : Option Nat
  tlsCaFile : Option String
  logLevel : Option String
  allowPlainHttp : Option Bool
  allowInsecureUpdates : Option Bool
  inventoryFullRefreshIntervalSecs : Option Nat
  maxSpoolEntries : Option Nat
  updates : UpdateConfig

/-- `Config`, whole. Intervals are in seconds. -/
structure AgentConfig extends Config where
  serverUrl : String
  provisioningKeyFile : String
  stateDir : String
  inventoryInterval : Nat
  heartbeatInterval : Nat
  requestTimeout : Nat
  tlsCaFile : Option String
  logLevel : String
  allowPlainHttp : Bool
  allowInsecureUpdates : Bool
  inventoryFullRefreshInterval : Nat
  maxSpoolEntries : Nat

/-- What a configuration is loaded on. -/
structure ConfigHost where
  /-- `env::var`, of a variable that is set to a text. -/
  env : String → Option String
  /-- `fs::read_to_string`. -/
  readToString : String → Except String String
  /-- `toml::from_str` at `FileConfig`. -/
  fromToml : String → Except String FileConfig
  /-- `Path::is_file`. -/
  isFile : String → Bool

/-- `str::parse` at `u64`. -/
def parseU64 (text : String) : Option Nat :=
  let digits : List Char := match text.toList with
    | '+' :: digits => digits
    | digits => digits
  let value := digits.foldl (fun n c => 10 * n + (c.toNat - '0'.toNat)) 0
  if digits ≠ [] ∧ digits.all Char.isDigit ∧ value < 2 ^ 64 then some value else none

/-- `str::parse` of the two literals. -/
def parseBool : String → Option Bool
  | "true" => some true
  | "false" => some false
  | _ => none

section Loading

variable (P : Platform) (H : ConfigHost)

/-- A variable overrides a value, if it can be read. -/
def overrideValue {α : Type} (parse : String → Option α) (what : String) (target : Option α)
    (name : String) : Except ConfigError (Option α) :=
  match H.env name with
  | none => .ok target
  | some value =>
    match parse value with
    | some value => .ok (some value)
    | none => .error (.invalid ("environment variable " ++ name ++ " must be " ++ what))

/-- `override_string` and `override_path`. -/
def overrideString (target : Option String) (name : String) : Option String :=
  (H.env name).or target

def overrideU64 (target : Option Nat) (name : String) : Except ConfigError (Option Nat) :=
  overrideValue H parseU64 "an integer" target name

def overrideBool (target : Option Bool) (name : String) : Except ConfigError (Option Bool) :=
  overrideValue H parseBool "true or false" target name

def applyEnvOverrides (values : FileConfig) : Except ConfigError FileConfig := do
  let inventoryIntervalSecs ←
    overrideU64 H values.inventoryIntervalSecs "LARISKA_INVENTORY_INTERVAL_SECS"
  let heartbeatIntervalSecs ←
    overrideU64 H values.heartbeatIntervalSecs "LARISKA_HEARTBEAT_INTERVAL_SECS"
  let requestTimeoutSecs ← overrideU64 H values.requestTimeoutSecs "LARISKA_REQUEST_TIMEOUT_SECS"
  let allowPlainHttp ← overrideBool H values.allowPlainHttp "LARISKA_ALLOW_PLAIN_HTTP"
  let inventoryFullRefreshIntervalSecs ← overrideU64 H values.inventoryFullRefreshIntervalSecs
    "LARISKA_INVENTORY_FULL_REFRESH_INTERVAL_SECS"
  let maxSpoolEntries ← overrideU64 H values.maxSpoolEntries "LARISKA_MAX_SPOOL_ENTRIES"
  pure { values with
    serverUrl := overrideString H values.serverUrl "LARISKA_SERVER_URL"
    provisioningKeyFile :=
      overrideString H values.provisioningKeyFile "LARISKA_PROVISIONING_KEY_FILE"
    stateDir := overrideString H values.stateDir "LARISKA_STATE_DIR"
    tlsCaFile := overrideString H values.tlsCaFile "LARISKA_TLS_CA_FILE"
    logLevel := overrideString H values.logLevel "LARISKA_LOG_LEVEL"
    inventoryIntervalSecs, heartbeatIntervalSecs, requestTimeoutSecs, allowPlainHttp,
    inventoryFullRefreshIntervalSecs, maxSpoolEntries }

/-- A value that is there and passes. -/
def requiredValue (passes : String → Bool) (value : Option String) (key : String) :
    Except ConfigError String :=
  match value.filter passes with
  | some value => .ok value
  | none => .error (.invalid (key ++ " is required"))

def requiredString (value : Option String) (key : String) : Except ConfigError String :=
  requiredValue (fun value => trim value ≠ []) value key

def requiredPath (value : Option String) (key : String) : Except ConfigError String :=
  requiredValue (fun value => value ≠ "") value key

/-- An error of a check. -/
def invalid {α : Type} (checked : Except String α) : Except ConfigError α :=
  checked.mapError .invalid

def boundedU64 (name : String) (value min max : Nat) : Except String Nat := do
  demand (min ≤ value ∧ value ≤ max)
    (name ++ " must be between " ++ toString min ++ " and " ++ toString max)
  pure value

def validateTimeout (name : String) (seconds : Nat) : Except String Unit :=
  demand (minTimeoutSecs ≤ seconds ∧ seconds ≤ maxTimeoutSecs)
    (name ++ " must be between " ++ toString minTimeoutSecs ++ " and " ++ toString maxTimeoutSecs
      ++ " seconds")

/-- `starts_with`. -/
def startsWith (text start : String) : Bool := start.toList.isPrefixOf text.toList

/-- `Config::validate`. -/
def AgentConfig.validate (config : AgentConfig) : Except String Unit := do
  (config.updates.validate P).mapError Fault.message
  demand (trim config.serverUrl ≠ []) "server_url is required"
  demand (config.allowPlainHttp = true ∨ startsWith config.serverUrl "https://" = true)
    "server_url must use HTTPS unless allow_plain_http is true"
  demand (config.allowPlainHttp = false ∨ startsWith config.serverUrl "http://" = true
      ∨ startsWith config.serverUrl "https://" = true)
    "server_url must start with http:// or https://"
  demand (H.isFile config.provisioningKeyFile)
    "provisioning_key_file must point to a readable file"
  validateInterval "inventory_interval" config.inventoryInterval
  validateInterval "heartbeat_interval" config.heartbeatInterval
  validateTimeout "request_timeout" config.requestTimeout
  validateInterval "inventory_full_refresh_interval" config.inventoryFullRefreshInterval

def fromFileConfig (values : FileConfig) : Except ConfigError AgentConfig := do
  let serverUrl ← requiredString values.serverUrl "server_url"
  let provisioningKeyFile ← requiredPath values.provisioningKeyFile "provisioning_key_file"
  let stateDir ← requiredPath values.stateDir "state_dir"
  let maxSpoolEntries ← invalid (boundedU64 "max_spool_entries"
    (values.maxSpoolEntries.getD defaultMaxSpoolEntries) minMaxSpoolEntries maxMaxSpoolEntries)
  let config : AgentConfig :=
    { updates := values.updates
      inventoryInterval := values.inventoryIntervalSecs.getD defaultInventoryIntervalSecs
      heartbeatInterval := values.heartbeatIntervalSecs.getD defaultHeartbeatIntervalSecs
      requestTimeout := values.requestTimeoutSecs.getD defaultRequestTimeoutSecs
      tlsCaFile := values.tlsCaFile
      logLevel := values.logLevel.getD "info"
      allowPlainHttp := values.allowPlainHttp.getD false
      allowInsecureUpdates := values.allowInsecureUpdates.getD false
      inventoryFullRefreshInterval :=
        values.inventoryFullRefreshIntervalSecs.getD defaultFullRefreshIntervalSecs
      serverUrl, provisioningKeyFile, stateDir, maxSpoolEntries }
  invalid (config.validate P H)
  pure config

def parseConfigFile (path : String) : Except ConfigError FileConfig := do
  let content ← (H.readToString path).mapError fun error =>
    .io ("failed to read config file " ++ path ++ ": " ++ error)
  (H.fromToml content).mapError fun error => .invalid ("invalid TOML configuration: " ++ error)

def fromFileAndEnv (path : String) : Except ConfigError AgentConfig := do
  let values ← parseConfigFile H path
  let values ← applyEnvOverrides H values
  fromFileConfig P H values

end Loading

/-! ## What is loaded -/

section Chosen

variable (P : Platform) (H : ConfigHost) (file : FileConfig)

/-- **The variables can be read** where they are set. -/
structure ConfigHost.Readable : Prop where
  integers : ∀ name ∈ ["LARISKA_INVENTORY_INTERVAL_SECS", "LARISKA_HEARTBEAT_INTERVAL_SECS",
    "LARISKA_REQUEST_TIMEOUT_SECS", "LARISKA_INVENTORY_FULL_REFRESH_INTERVAL_SECS",
    "LARISKA_MAX_SPOOL_ENTRIES"], ∀ value ∈ H.env name, parseU64 value ≠ none
  boolean : ∀ value ∈ H.env "LARISKA_ALLOW_PLAIN_HTTP", parseBool value ≠ none

/-- What the environment says, else the file. -/
def said {α : Type} (parse : String → Option α) (name : String) (target : Option α) : Option α :=
  ((H.env name).bind parse).or target

/-- The file, with what the environment says in its place. -/
def overridden : FileConfig where
  updates := file.updates
  serverUrl := said H some "LARISKA_SERVER_URL" file.serverUrl
  provisioningKeyFile := said H some "LARISKA_PROVISIONING_KEY_FILE" file.provisioningKeyFile
  stateDir := said H some "LARISKA_STATE_DIR" file.stateDir
  inventoryIntervalSecs :=
    said H parseU64 "LARISKA_INVENTORY_INTERVAL_SECS" file.inventoryIntervalSecs
  heartbeatIntervalSecs :=
    said H parseU64 "LARISKA_HEARTBEAT_INTERVAL_SECS" file.heartbeatIntervalSecs
  requestTimeoutSecs := said H parseU64 "LARISKA_REQUEST_TIMEOUT_SECS" file.requestTimeoutSecs
  tlsCaFile := said H some "LARISKA_TLS_CA_FILE" file.tlsCaFile
  logLevel := said H some "LARISKA_LOG_LEVEL" file.logLevel
  allowPlainHttp := said H parseBool "LARISKA_ALLOW_PLAIN_HTTP" file.allowPlainHttp
  allowInsecureUpdates := file.allowInsecureUpdates
  inventoryFullRefreshIntervalSecs := said H parseU64
    "LARISKA_INVENTORY_FULL_REFRESH_INTERVAL_SECS" file.inventoryFullRefreshIntervalSecs
  maxSpoolEntries := said H parseU64 "LARISKA_MAX_SPOOL_ENTRIES" file.maxSpoolEntries

/-- Values, with defaults for those that are not there. -/
def withDefaults : AgentConfig where
  updates := file.updates
  serverUrl := file.serverUrl.getD ""
  provisioningKeyFile := file.provisioningKeyFile.getD ""
  stateDir := file.stateDir.getD ""
  inventoryInterval := file.inventoryIntervalSecs.getD 3600
  heartbeatInterval := file.heartbeatIntervalSecs.getD 60
  requestTimeout := file.requestTimeoutSecs.getD 30
  tlsCaFile := file.tlsCaFile
  logLevel := file.logLevel.getD "info"
  allowPlainHttp := file.allowPlainHttp.getD false
  allowInsecureUpdates := file.allowInsecureUpdates.getD false
  inventoryFullRefreshInterval := file.inventoryFullRefreshIntervalSecs.getD 86400
  maxSpoolEntries := file.maxSpoolEntries.getD 200

/-- **A configuration the agent can run on.** -/
structure AgentConfig.Valid (config : AgentConfig) : Prop where
  updates : config.updates.validate P = .ok ()
  serverUrl : trim config.serverUrl ≠ []
  transport : startsWith config.serverUrl "https://" = true ∨
    config.allowPlainHttp = true ∧ startsWith config.serverUrl "http://" = true
  provisioningKeyFile : config.provisioningKeyFile ≠ "" ∧
    H.isFile config.provisioningKeyFile = true
  stateDir : config.stateDir ≠ ""
  inventoryInterval : 10 ≤ config.inventoryInterval ∧ config.inventoryInterval ≤ 86400
  heartbeatInterval : 10 ≤ config.heartbeatInterval ∧ config.heartbeatInterval ≤ 86400
  requestTimeout : 1 ≤ config.requestTimeout ∧ config.requestTimeout ≤ 300
  inventoryFullRefreshInterval : 10 ≤ config.inventoryFullRefreshInterval ∧
    config.inventoryFullRefreshInterval ≤ 86400
  maxSpoolEntries : 1 ≤ config.maxSpoolEntries ∧ config.maxSpoolEntries ≤ 10000

end Chosen

variable {P : Platform} {H : ConfigHost} {file values : FileConfig} {config : AgentConfig}

/-- A variable overrides what it can be read as. -/
theorem overrideValue_eq_ok {α : Type} {parse : String → Option α} {what name : String}
    {target result : Option α} :
    overrideValue H parse what target name = .ok result ↔
      (∀ value ∈ H.env name, parse value ≠ none) ∧ result = said H parse name target := by
  unfold overrideValue said
  cases henv : H.env name with
  | none => simp [eq_comm]
  | some value =>
    cases hparse : parse value with
    | none => simp [hparse]
    | some parsed => simp [hparse, eq_comm]

theorem overrideString_eq (target : Option String) (name : String) :
    overrideString H target name = said H some name target := by
  unfold said overrideString
  rw [Option.bind_fun_some]

/-- **Applying the environment** succeeds where every variable can be read. -/
theorem applyEnvOverrides_eq_ok :
    applyEnvOverrides H file = .ok values ↔ H.Readable ∧ values = overridden H file := by
  unfold applyEnvOverrides
  simp only [overrideString_eq]
  constructor
  · intro h
    obtain ⟨_, hinventory, h⟩ := Except.bind_eq_ok.mp h
    obtain ⟨_, hheartbeat, h⟩ := Except.bind_eq_ok.mp h
    obtain ⟨_, htimeout, h⟩ := Except.bind_eq_ok.mp h
    obtain ⟨_, hhttp, h⟩ := Except.bind_eq_ok.mp h
    obtain ⟨_, hrefresh, h⟩ := Except.bind_eq_ok.mp h
    obtain ⟨_, hspool, h⟩ := Except.bind_eq_ok.mp h
    obtain ⟨h₁, rfl⟩ := overrideValue_eq_ok.mp hinventory
    obtain ⟨h₂, rfl⟩ := overrideValue_eq_ok.mp hheartbeat
    obtain ⟨h₃, rfl⟩ := overrideValue_eq_ok.mp htimeout
    obtain ⟨h₄, rfl⟩ := overrideValue_eq_ok.mp hhttp
    obtain ⟨h₅, rfl⟩ := overrideValue_eq_ok.mp hrefresh
    obtain ⟨h₆, rfl⟩ := overrideValue_eq_ok.mp hspool
    refine ⟨⟨?_, h₄⟩, (Except.ok.inj h).symm⟩
    simp only [List.forall_mem_cons]
    exact ⟨h₁, h₂, h₃, h₅, h₆, List.forall_mem_nil _⟩
  · rintro ⟨⟨hintegers, hboolean⟩, rfl⟩
    simp only [List.forall_mem_cons] at hintegers
    obtain ⟨h₁, h₂, h₃, h₅, h₆, -⟩ := hintegers
    refine Except.bind_eq_ok.mpr ⟨_, overrideValue_eq_ok.mpr ⟨h₁, rfl⟩, ?_⟩
    refine Except.bind_eq_ok.mpr ⟨_, overrideValue_eq_ok.mpr ⟨h₂, rfl⟩, ?_⟩
    refine Except.bind_eq_ok.mpr ⟨_, overrideValue_eq_ok.mpr ⟨h₃, rfl⟩, ?_⟩
    refine Except.bind_eq_ok.mpr ⟨_, overrideValue_eq_ok.mpr ⟨hboolean, rfl⟩, ?_⟩
    refine Except.bind_eq_ok.mpr ⟨_, overrideValue_eq_ok.mpr ⟨h₅, rfl⟩, ?_⟩
    exact Except.bind_eq_ok.mpr ⟨_, overrideValue_eq_ok.mpr ⟨h₆, rfl⟩, rfl⟩

theorem demand_eq_ok {c : Prop} [Decidable c] {message : String} {u : Unit} :
    demand c message = .ok u ↔ c := by
  unfold demand
  split <;> simp_all

theorem mapError_eq_ok {ε ε' α : Type} {f : ε → ε'} {x : Except ε α} {a : α} :
    x.mapError f = .ok a ↔ x = .ok a := by
  cases x <;> simp [Except.mapError]

/-- A required value is there: what does not pass includes what is empty. -/
theorem requiredValue_eq_ok {passes : String → Bool} {value : Option String} {key result : String}
    (hempty : passes "" = false) :
    requiredValue passes value key = .ok result ↔
      result = value.getD "" ∧ passes (value.getD "") = true := by
  unfold requiredValue
  cases value with
  | none => simp [hempty]
  | some found =>
    rw [Option.filter_some, Option.getD_some]
    cases hpasses : passes found with
    | false => simp
    | true => simp [eq_comm]

theorem boundedU64_eq_ok {name : String} {value min max result : Nat} :
    boundedU64 name value min max = .ok result ↔
      (min ≤ value ∧ value ≤ max) ∧ result = value := by
  constructor
  · intro h
    obtain ⟨_, hbounded, h⟩ := Except.bind_eq_ok.mp h
    exact ⟨demand_eq_ok.mp hbounded, (Except.ok.inj h).symm⟩
  · rintro ⟨hbounded, rfl⟩
    exact Except.bind_eq_ok.mpr ⟨(), demand_eq_ok.mpr hbounded, rfl⟩

theorem validateTimeout_eq_ok {name : String} {seconds : Nat} :
    validateTimeout name seconds = .ok () ↔ 1 ≤ seconds ∧ seconds ≤ 300 :=
  demand_eq_ok

/-- What the checks of a configuration make sure of. -/
theorem AgentConfig.validate_eq_ok :
    config.validate P H = .ok () ↔
      config.updates.validate P = .ok () ∧ trim config.serverUrl ≠ [] ∧
      (startsWith config.serverUrl "https://" = true ∨
        config.allowPlainHttp = true ∧ startsWith config.serverUrl "http://" = true) ∧
      H.isFile config.provisioningKeyFile = true ∧
      (10 ≤ config.inventoryInterval ∧ config.inventoryInterval ≤ 86400) ∧
      (10 ≤ config.heartbeatInterval ∧ config.heartbeatInterval ≤ 86400) ∧
      (1 ≤ config.requestTimeout ∧ config.requestTimeout ≤ 300) ∧
      10 ≤ config.inventoryFullRefreshInterval ∧
        config.inventoryFullRefreshInterval ≤ 86400 := by
  have htransport : (startsWith config.serverUrl "https://" = true ∨
        config.allowPlainHttp = true ∧ startsWith config.serverUrl "http://" = true) ↔
      (config.allowPlainHttp = true ∨ startsWith config.serverUrl "https://" = true) ∧
        (config.allowPlainHttp = false ∨ startsWith config.serverUrl "http://" = true ∨
          startsWith config.serverUrl "https://" = true) := by
    cases config.allowPlainHttp <;> simp [or_comm]
  rw [htransport]
  constructor
  · intro h
    obtain ⟨_, hupdates, h⟩ := Except.bind_eq_ok.mp h
    obtain ⟨_, hurl, h⟩ := Except.bind_eq_ok.mp h
    obtain ⟨_, hhttps, h⟩ := Except.bind_eq_ok.mp h
    obtain ⟨_, hhttp, h⟩ := Except.bind_eq_ok.mp h
    obtain ⟨_, hfile, h⟩ := Except.bind_eq_ok.mp h
    obtain ⟨_, hinventory, h⟩ := Except.bind_eq_ok.mp h
    obtain ⟨_, hheartbeat, h⟩ := Except.bind_eq_ok.mp h
    obtain ⟨_, htimeout, hrefresh⟩ := Except.bind_eq_ok.mp h
    exact ⟨mapError_eq_ok.mp hupdates, demand_eq_ok.mp hurl,
      ⟨demand_eq_ok.mp hhttps, demand_eq_ok.mp hhttp⟩, demand_eq_ok.mp hfile,
      validateInterval_eq_ok.mp hinventory, validateInterval_eq_ok.mp hheartbeat,
      validateTimeout_eq_ok.mp htimeout, validateInterval_eq_ok.mp hrefresh⟩
  · rintro ⟨hupdates, hurl, ⟨hhttps, hhttp⟩, hfile, hinventory, hheartbeat, htimeout, hrefresh⟩
    refine Except.bind_eq_ok.mpr ⟨_, mapError_eq_ok.mpr hupdates, ?_⟩
    refine Except.bind_eq_ok.mpr ⟨(), demand_eq_ok.mpr hurl, ?_⟩
    refine Except.bind_eq_ok.mpr ⟨(), demand_eq_ok.mpr hhttps, ?_⟩
    refine Except.bind_eq_ok.mpr ⟨(), demand_eq_ok.mpr hhttp, ?_⟩
    refine Except.bind_eq_ok.mpr ⟨(), demand_eq_ok.mpr hfile, ?_⟩
    refine Except.bind_eq_ok.mpr ⟨(), validateInterval_eq_ok.mpr hinventory, ?_⟩
    refine Except.bind_eq_ok.mpr ⟨(), validateInterval_eq_ok.mpr hheartbeat, ?_⟩
    exact Except.bind_eq_ok.mpr ⟨(), validateTimeout_eq_ok.mpr htimeout,
      validateInterval_eq_ok.mpr hrefresh⟩

/-- **Values become a configuration** if they do with their defaults. -/
theorem fromFileConfig_eq_ok :
    fromFileConfig P H values = .ok config ↔ config = withDefaults values ∧ config.Valid P H := by
  constructor
  · intro h
    obtain ⟨_, hurl, h⟩ := Except.bind_eq_ok.mp h
    obtain ⟨_, hpath, h⟩ := Except.bind_eq_ok.mp h
    obtain ⟨_, hdir, h⟩ := Except.bind_eq_ok.mp h
    obtain ⟨_, hentries, h⟩ := Except.bind_eq_ok.mp h
    obtain ⟨_, hvalid, h⟩ := Except.bind_eq_ok.mp h
    obtain ⟨rfl, -⟩ := (requiredValue_eq_ok rfl).mp hurl
    obtain ⟨rfl, hkey⟩ := (requiredValue_eq_ok rfl).mp hpath
    obtain ⟨rfl, hstate⟩ := (requiredValue_eq_ok rfl).mp hdir
    obtain ⟨hspool, rfl⟩ := boundedU64_eq_ok.mp (mapError_eq_ok.mp hentries)
    obtain rfl := Except.ok.inj h
    obtain ⟨hupdates, hurl, htransport, hfile, hinventory, hheartbeat, htimeout, hrefresh⟩ :=
      AgentConfig.validate_eq_ok.mp (mapError_eq_ok.mp hvalid)
    exact ⟨rfl, hupdates, hurl, htransport, ⟨of_decide_eq_true hkey, hfile⟩,
      of_decide_eq_true hstate, hinventory, hheartbeat, htimeout, hrefresh, hspool⟩
  · rintro ⟨rfl, h⟩
    have hvalid := AgentConfig.validate_eq_ok.mpr ⟨h.updates, h.serverUrl, h.transport,
      h.provisioningKeyFile.2, h.inventoryInterval, h.heartbeatInterval, h.requestTimeout,
      h.inventoryFullRefreshInterval⟩
    refine Except.bind_eq_ok.mpr ⟨_, (requiredValue_eq_ok rfl).mpr
      ⟨rfl, decide_eq_true h.serverUrl⟩, ?_⟩
    refine Except.bind_eq_ok.mpr ⟨_, (requiredValue_eq_ok rfl).mpr
      ⟨rfl, decide_eq_true h.provisioningKeyFile.1⟩, ?_⟩
    refine Except.bind_eq_ok.mpr ⟨_, (requiredValue_eq_ok rfl).mpr
      ⟨rfl, decide_eq_true h.stateDir⟩, ?_⟩
    refine Except.bind_eq_ok.mpr ⟨_, mapError_eq_ok.mpr
      (boundedU64_eq_ok.mpr ⟨h.maxSpoolEntries, rfl⟩), ?_⟩
    exact Except.bind_eq_ok.mpr ⟨(), mapError_eq_ok.mpr hvalid, rfl⟩

/-- **What the agent runs on is what was meant.** A configuration loads if and
only if its file can be read and parsed, every variable that is set can be read
as what it is for, and the environment over the file over the defaults makes a
valid configuration; and then it is that one. -/
theorem loads_iff (P : Platform) (H : ConfigHost) (path : String) (config : AgentConfig) :
    fromFileAndEnv P H path = .ok config ↔
      ∃ content file, H.readToString path = .ok content ∧ H.fromToml content = .ok file ∧
        H.Readable ∧ config = withDefaults (overridden H file) ∧ config.Valid P H := by
  constructor
  · intro h
    obtain ⟨file, hfile, h⟩ := Except.bind_eq_ok.mp h
    obtain ⟨_, henv, h⟩ := Except.bind_eq_ok.mp h
    obtain ⟨content, hcontent, hfile⟩ := Except.bind_eq_ok.mp hfile
    obtain ⟨hreadable, rfl⟩ := applyEnvOverrides_eq_ok.mp henv
    exact ⟨content, file, mapError_eq_ok.mp hcontent, mapError_eq_ok.mp hfile, hreadable,
      fromFileConfig_eq_ok.mp h⟩
  · rintro ⟨content, file, hcontent, hfile, hreadable, h⟩
    refine Except.bind_eq_ok.mpr ⟨file, Except.bind_eq_ok.mpr
      ⟨content, mapError_eq_ok.mpr hcontent, mapError_eq_ok.mpr hfile⟩, ?_⟩
    exact Except.bind_eq_ok.mpr
      ⟨_, applyEnvOverrides_eq_ok.mpr ⟨hreadable, rfl⟩, fromFileConfig_eq_ok.mpr h⟩

namespace Sample

end Sample

end Lariska
