import Lariska.DeliverySteps
import Lariska.OsRelease
import Lariska.SnapshotValidity
import Lariska.SpoolRetention
import Lariska.SpoolRoundTrip

/-!
# What the agent queues

The heartbeat loop learns which schema version the server takes, the inventory
loop collects and queues, and the worker submits what is queued. The server
takes what a snapshot of version 1 does not have for removed, so one that was
made of an incomplete collection must never come to it; in version 2 the sources
say what was seen.

The three loops share the process and the state directory, and `Agent` has their
steps in any order: a capability can change while a collection runs, and what is
queued is sent in a later process, to a server that has forgotten it. Whatever
is queued or submitted, in any run, is valid, made by a collection in the
version that was announced when it began, and in version 1 of a complete one
(`queued_authoritative`).
-/

namespace Lariska

/-! ## A collection -/

structure EnvironmentInfo where
  envType : String
  containerEngine : Option String
  hypervisor : Option String
  cloudProvider : Option String

/-- `to_labels`, with the keys in order. -/
def EnvironmentInfo.toLabels (e : EnvironmentInfo) : List (String × String) :=
  (e.cloudProvider.map fun cloud => ("env.cloud_provider", cloud)).toList
    ++ (e.containerEngine.map fun engine => ("env.container_engine", engine)).toList
    ++ (e.hypervisor.map fun hypervisor => ("env.hypervisor", hypervisor)).toList
    ++ [("env.type", e.envType)]

/-- What the agent knows of itself and the machine. -/
structure Machine where
  agentId : String
  hostname : String
  os : String
  arch : String

/-- What a collection has found. -/
structure Cycle where
  collected : CollectorResult
  /-- `generate_snapshot_id`. -/
  snapshotId : Except String String
  /-- The time in RFC 3339. -/
  collectedAt : Except String String
  environment : EnvironmentInfo
  onBattery : Bool
  osRelease : OsRelease
  /-- `platform_uuid_raw`. -/
  machineId : Option String

/-- `safe_collector_warnings`. -/
def safeCollectorWarnings (sources : List CollectionSource) : List String :=
  sources.filterMap fun source =>
    source.diagnosticCode.map fun code => source.source.asStr ++ ": " ++ code

/-- `ensure_authoritative_collection`. -/
def ensureAuthoritativeCollection (collected : CollectorResult) : Except String Unit :=
  demand (collected.complete = true)
    ("inventory collection was incomplete (" ++ toString collected.warnings.length
      ++ " warning(s)); snapshot was not spooled or submitted")

section Snapshots

variable (L : Libraries) (m : Machine)

/-- `build_snapshot`. -/
def buildSnapshot (c : Cycle) : Except String InventorySnapshot := do
  let snapshotId ← noted "failed to generate snapshot id: " c.snapshotId
  let collectedAt ← noted "failed to format timestamp: " c.collectedAt
  pure (InventorySnapshot.newV2 L
    { snapshotId, collectedAt
      agentId := m.agentId
      hostname := m.hostname
      osFamily := some m.os
      osName := some (c.osRelease.name.getD m.os)
      osVersion := c.osRelease.version
      osArch := some m.arch
      agentVersion := cargoPkgVersion
      labels := c.environment.toLabels
        ++ [("host.power_source", if c.onBattery then "battery" else "ac")]
      identifiers := platformIdentifiers L c.machineId
      collectorWarnings := safeCollectorWarnings c.collected.sources }
    c.collected.entries c.collected.sources)

/-- `collect_and_submit`, up to `enqueue_if_needed`. -/
def collectAndSubmit (schemaVersion : Nat) (c : Cycle) : Except String InventorySnapshot := do
  (if schemaVersion = 1 then ensureAuthoritativeCollection c.collected else pure ())
  let snapshot ← buildSnapshot L m c
  let snapshot := if schemaVersion = 2 then snapshot else snapshot.intoV1 L
  snapshot.validate L
  pure snapshot

end Snapshots

/-! ## The agent -/

structure Agent where
  delivery : Delivery
  /-- `inventory_schema_version`. -/
  schemaVersion : Nat
  /-- The version the running collection was begun with. -/
  collecting : Option Nat

inductive AgentEvent where
  /-- A registration or heartbeat is answered, with this version. -/
  | answered (version : Nat)
  /-- The timer of the inventory loop is due. -/
  | collect
  /-- The collection is over. -/
  | collected (cycle : Cycle) (now : Nat)
  /-- A step of the delivery client. -/
  | delivery (e : DeliveryEvent)

/-- `record_capability`. -/
def recordCapability (version : Nat) : Nat := if version = 2 then 2 else 1

namespace Agent

variable (L : Libraries) (settings : Settings) (m : Machine) (a : Agent)

/-- The delivery client has made a step. What the process had in memory is gone
with the client. -/
def after (σ : Delivery) : Agent :=
  if σ.client = none then ⟨σ, 1, none⟩ else { a with delivery := σ }

/-- `record_capability`, in a running process. -/
def answered (version : Nat) : Option Agent :=
  if a.delivery.client = none then none
  else some { a with schemaVersion := recordCapability version }

/-- `collect_and_submit` begins, with the version as it is now. -/
def collect : Option Agent :=
  match a.delivery.client, a.delivery.inventory, a.collecting with
  | some _, .idle, none => some { a with collecting := some a.schemaVersion }
  | _, _, _ => none

/-- The collection is over, and `enqueue_if_needed` begins if it gave a
snapshot. -/
def collected (cycle : Cycle) (now : Nat) : Option Agent :=
  match a.collecting with
  | none => none
  | some version =>
    match collectAndSubmit L m version cycle with
    | .error _ => some { a with collecting := none }
    | .ok snapshot =>
      (a.delivery.due L settings snapshot now).map fun σ => ⟨σ, a.schemaVersion, none⟩

/-- **One step of the agent**, if it can be made. -/
def step : AgentEvent → Option Agent
  | .answered version => a.answered version
  | .collect => a.collect
  | .collected cycle now => a.collected L settings m cycle now
  | .delivery (.due _ _) => none
  | .delivery e => (a.delivery.step L settings e).map a.after

/-- An agent in a fresh state directory. -/
def Fresh : Prop := a.delivery.Fresh ∧ a.schemaVersion = 1 ∧ a.collecting = none

end Agent

/-- The histories of the agent. -/
abbrev Ran (L : Libraries) (settings : Settings) (m : Machine) :
    Past Agent AgentEvent → Agent → Prop :=
  History Agent.Fresh fun _ a e a' => a.step L settings m e = some a'

/-! ## What has been announced -/

/-- The process ends in the step. -/
def AgentEvent.Ends : AgentEvent → Bool
  | .delivery .crash => true
  | .delivery (.killedSpooling _ _ _) => true
  | _ => false

/-- The version the server takes, as far as the process knows: what the last
answer said, and 1 before the first. -/
def announced : Past Agent AgentEvent → Nat
  | [] => 1
  | (.answered version, _) :: _ => recordCapability version
  | (e, _) :: past => if e.Ends then 1 else announced past

/-- What was announced when the running collection began. -/
def begun : Past Agent AgentEvent → Option Nat
  | [] => none
  | (.collect, _) :: past => some (announced past)
  | (.collected _ _, _) :: _ => none
  | (e, _) :: past => if e.Ends then none else begun past

/-- The collections of a history, with the versions they were begun with. -/
def cyclesOf : Past Agent AgentEvent → List (Nat × Cycle)
  | [] => []
  | (.collected cycle _, _) :: past =>
    ((begun past).map fun version => (version, cycle)).toList ++ cyclesOf past
  | _ :: past => cyclesOf past

variable {L : Libraries} {settings : Settings} {m : Machine} {past : Past Agent AgentEvent}
variable {a a' : Agent} {e : AgentEvent} {σ σ' : Delivery} {P Q : InventorySnapshot → Prop}

/-! ## One collection -/

theorem labelsSorted_toLabels (e : EnvironmentInfo) (power : String) :
    ((e.toLabels ++ [("host.power_source", power)]).map Prod.fst).Pairwise (· < ·) := by
  obtain ⟨envType, engine, hypervisor, cloud⟩ := e
  cases engine <;> cases hypervisor <;> cases cloud <;>
    simp only [EnvironmentInfo.toLabels, Option.map_none, Option.map_some, Option.toList_none,
      Option.toList_some, List.nil_append, List.cons_append, List.map_cons, List.map_nil] <;>
    decide

/-- **What a collection gives to the queue**: a valid snapshot of the version it
was begun with, in version 1 of a complete collection. -/
structure Authoritative (L : Libraries) (version : Nat) (c : Cycle) (s : InventorySnapshot) :
    Prop where
  valid : s.validate L = .ok ()
  schemaVersion : s.schemaVersion = version
  labelsSorted : s.LabelsSorted
  complete : version = 1 → c.collected.complete = true

theorem buildSnapshot_eq_ok {c : Cycle} {s : InventorySnapshot} (h : buildSnapshot L m c = .ok s) :
    s.schemaVersion = 2 ∧ s.LabelsSorted := by
  obtain ⟨snapshotId, -, h⟩ := Except.bind_eq_ok.mp h
  obtain ⟨collectedAt, -, h⟩ := Except.bind_eq_ok.mp h
  cases h
  exact ⟨rfl, labelsSorted_toLabels c.environment _⟩

theorem authoritative_of_ok {version : Nat} {c : Cycle} {s : InventorySnapshot}
    (hversion : version = 1 ∨ version = 2) (h : collectAndSubmit L m version c = .ok s) :
    Authoritative L version c s := by
  obtain ⟨_, hcomplete, h⟩ := Except.bind_eq_ok.mp h
  obtain ⟨built, hbuilt, h⟩ := Except.bind_eq_ok.mp h
  obtain ⟨_, hvalid, h⟩ := Except.bind_eq_ok.mp h
  obtain ⟨hschema, hlabels⟩ := buildSnapshot_eq_ok hbuilt
  cases h
  rcases hversion with rfl | rfl
  · refine ⟨hvalid, rfl, hlabels, fun _ => ?_⟩
    rw [if_pos rfl] at hcomplete
    unfold ensureAuthoritativeCollection demand at hcomplete
    split at hcomplete
    · assumption
    · cases hcomplete
  · exact ⟨hvalid, hschema, hlabels, fun h => absurd h (by decide)⟩

/-! ## What the delivery client carries -/

/-- Every snapshot that is queued, about to be queued or with the server has the
property. -/
structure Delivery.Carries (L : Libraries) (P : InventorySnapshot → Prop) (σ : Delivery) :
    Prop where
  queued : ∀ f ∈ σ.spool.pending, ∀ s ∈ f.snapshot L, P s
  offered : ∀ s ∈ σ.inventory.offered, P s
  current : ∀ s ∈ σ.worker.current, P s

namespace Delivery.Carries

theorem imp (h : σ.Carries L P) (hPQ : ∀ s, P s → Q s) : σ.Carries L Q where
  queued f hf s hs := hPQ s (h.queued f hf s hs)
  offered s hs := hPQ s (h.offered s hs)
  current s hs := hPQ s (h.current s hs)

/-- Whatever takes entries away and leaves the tasks with nothing new. -/
theorem shrinks (h : σ.Carries L P) (hsub : σ'.spool.pending ⊆ σ.spool.pending)
    (hoffered : ∀ s ∈ σ'.inventory.offered, s ∈ σ.inventory.offered)
    (hcurrent : ∀ s ∈ σ'.worker.current, s ∈ σ.worker.current) : σ'.Carries L P where
  queued f hf := h.queued f (hsub hf)
  offered s hs := h.offered s (hoffered s hs)
  current s hs := h.current s (hcurrent s hs)

/-- What is written was on offer, and is read back as that. -/
theorem writes {snapshot : InventorySnapshot} {due : Bool} {time place : Nat} (h : σ.Carries L P)
    (hL : L.Lossless) (hround : ∀ s, P s → L.RoundTrips s)
    (hi : σ.inventory = .deciding snapshot due)
    (hjson : snapshot.toCanonicalJson.length ≤ maxSnapshotBytes)
    (hsub : σ'.spool.pending ⊆ (σ.spool.write L snapshot time place).pending)
    (hidle : σ'.inventory.offered = none)
    (hcurrent : ∀ s ∈ σ'.worker.current, s ∈ σ.worker.current) : σ'.Carries L P where
  queued f hf s hs := by
    have hoffered : P snapshot := h.offered snapshot (by rw [hi]; rfl)
    rcases Spool.mem_write.mp (hsub hf) with rfl | ⟨hf, -⟩
    · have hs : (entryFile L snapshot time).snapshot L = some s := hs
      rw [snapshot_entryFile hL (hround snapshot hoffered) hjson] at hs
      split at hs
      · exact Option.some.inj hs ▸ hoffered
      · cases hs
    · exact h.queued f hf s hs
  offered s hs := by
    rw [hidle] at hs
    cases hs
  current s hs := h.current s (hcurrent s hs)

/-- **A step of the client brings no snapshot but the one it is offered.** -/
theorem moves {e : DeliveryEvent} (h : σ.Carries L P) (hL : L.Lossless)
    (hround : ∀ s, P s → L.RoundTrips s) (hdue : ∀ s now, e = .due s now → P s)
    (hm : Delivery.Moves L settings σ e σ') : σ'.Carries L P := by
  have hread : ∀ path readable moved,
      (σ.spool.readPending L path readable moved).2.pending ⊆ σ.spool.pending :=
    fun path readable moved => (Spool.readPending_sublist _ path readable moved).subset
  cases hm with
  | start | inspected | inspectedAll | listed | notListed | refused | stored | recorded | cleared =>
    exact h.shrinks (fun _ hf => hf) (fun _ hs => hs) fun _ hs => (nomatch hs)
  | passedOver hc hw hr | skipped hw hr | notRead hw hr =>
    exact h.shrinks (hread _ _ _) (fun _ hs => hs) fun _ hs => (nomatch hs)
  | due hc hi hw =>
    refine ⟨h.queued, fun s hs => ?_, h.current⟩
    cases hs
    exact hdue _ _ rfl
  | suppressed | tooLarge =>
    exact h.shrinks (fun _ hf => hf) (fun _ hs => (nomatch hs)) fun _ hs => hs
  | @notWritten client snapshot due effective spooling hc hi hs hj hwritten =>
    cases effective with
    | false => exact h.shrinks (fun _ hf => hf) (fun _ hs => (nomatch hs)) fun _ hs => hs
    | true => exact h.writes hL hround hi hj (fun _ hf => hf) rfl fun _ hs => hs
  | enqueued hc hi hs hj hwritten =>
    exact h.writes hL hround hi hj List.filter_sublist.subset rfl fun _ hs => hs
  | killedSpooling hc hi hs hj =>
    exact h.writes hL hround hi hj List.filter_sublist.subset rfl fun _ hs => (nomatch hs)
  | @read path paths moved f snapshot hw hf ht =>
    refine ⟨h.queued, h.offered, fun s hs => ?_⟩
    cases hs
    exact h.queued f (List.mem_of_find?_eq_some hf) snapshot ht
  | accepted hw =>
    refine h.shrinks (fun _ hf => hf) (fun _ hs => hs) fun s hs => ?_
    rw [hw]
    exact hs
  | lost hw => exact h.shrinks (fun _ hf => hf) (fun _ hs => hs) fun _ hs => hs
  | @rejected snapshot paths why moved hw =>
    refine h.shrinks ?_ (fun _ hs => hs) fun s hs => ?_
    · show (if moved.effective then σ.spool.quarantineById snapshot.snapshotId
        else σ.spool).pending ⊆ _
      split
      · exact List.filter_sublist.subset
      · exact fun _ hf => hf
    · change s ∈ (if moved = .done then WorkerTask.next paths else .idle).current at hs
      split at hs <;> cases hs
  | @removed snapshot paths result hw =>
    refine h.shrinks ?_ (fun _ hs => hs) fun s hs => ?_
    · show (if result.effective then σ.spool.remove snapshot.snapshotId
        else σ.spool).pending ⊆ _
      split
      · exact List.filter_sublist.subset
      · exact fun _ hf => hf
    · change s ∈ (if result = .done then WorkerTask.removed _ paths else .idle).current at hs
      split at hs <;> cases hs
  | crash => exact h.shrinks (fun _ hf => hf) (fun _ hs => (nomatch hs)) fun _ hs => (nomatch hs)

end Delivery.Carries

/-! ## The three loops together -/

theorem recordCapability_cases (version : Nat) :
    recordCapability version = 1 ∨ recordCapability version = 2 := by
  unfold recordCapability
  split
  · exact .inr rfl
  · exact .inl rfl

theorem announced_cons_delivery (e : DeliveryEvent) :
    announced ((.delivery e, a) :: past)
      = if (AgentEvent.delivery e).Ends then 1 else announced past := rfl

theorem begun_cons_delivery (e : DeliveryEvent) :
    begun ((.delivery e, a) :: past)
      = if (AgentEvent.delivery e).Ends then none else begun past := rfl

/-- No version but these two is ever asked for. -/
theorem announced_cases (past : Past Agent AgentEvent) :
    announced past = 1 ∨ announced past = 2 := by
  induction past with
  | nil => exact .inl rfl
  | cons x past ih =>
    obtain ⟨e, a⟩ := x
    cases e with
    | answered version => exact recordCapability_cases version
    | collect => exact ih
    | collected cycle now => exact ih
    | delivery e =>
      rw [announced_cons_delivery]
      split
      · exact .inl rfl
      · exact ih

theorem begun_cases (past : Past Agent AgentEvent) : ∀ version ∈ begun past,
    version = 1 ∨ version = 2 := by
  induction past with
  | nil => exact fun _ h => (nomatch h)
  | cons x past ih =>
    obtain ⟨e, a⟩ := x
    cases e with
    | answered version => exact ih
    | collect => exact fun version h => Option.some.inj h ▸ announced_cases past
    | collected cycle now => exact fun _ h => (nomatch h)
    | delivery e =>
      rw [begun_cons_delivery]
      split
      · exact fun _ h => (nomatch h)
      · exact ih

theorem version_of_mem_cyclesOf {version : Nat} {cycle : Cycle} :
    (version, cycle) ∈ cyclesOf past → version = 1 ∨ version = 2 := by
  induction past with
  | nil => exact fun h => (nomatch h)
  | cons x past ih =>
    obtain ⟨e, a⟩ := x
    cases e with
    | answered | collect | delivery => exact ih
    | collected c now =>
      intro h
      rcases List.mem_append.mp h with h | h
      · obtain ⟨v, hv, heq⟩ := Option.map_eq_some_iff.mp (Option.mem_toList.mp h)
        cases heq
        exact begun_cases past version hv
      · exact ih h

/-- A collection of the history made it. -/
def Made (L : Libraries) (m : Machine) (past : Past Agent AgentEvent) (s : InventorySnapshot) :
    Prop :=
  ∃ version cycle, (version, cycle) ∈ cyclesOf past ∧ collectAndSubmit L m version cycle = .ok s

theorem Made.cons {s : InventorySnapshot} (h : Made L m past s) (x : AgentEvent × Agent) :
    Made L m (x :: past) s := by
  obtain ⟨version, cycle, hmem, hok⟩ := h
  refine ⟨version, cycle, ?_, hok⟩
  obtain ⟨e, a⟩ := x
  cases e with
  | answered | collect | delivery => exact hmem
  | collected c now => exact List.mem_append_right _ hmem

theorem Made.roundTrips (hserde : L.Deserializes) {s : InventorySnapshot} (h : Made L m past s) :
    L.RoundTrips s := by
  obtain ⟨version, cycle, hmem, hok⟩ := h
  have hs := authoritative_of_ok (version_of_mem_cyclesOf hmem) hok
  exact roundTrips_of_deserializes hserde hs.labelsSorted (schemaVersion_lt_of_validate hs.valid)

/-- The client is there until the process ends. -/
theorem Delivery.Moves.client {e : DeliveryEvent} (hm : Delivery.Moves L settings σ e σ') :
    ((AgentEvent.delivery e).Ends = true → σ'.client = none) ∧
      ((AgentEvent.delivery e).Ends = false → σ'.client = none → σ.client = none) := by
  cases hm with
  | killedSpooling | crash => exact ⟨fun _ => rfl, fun h => (nomatch h)⟩
  | start | inspected | enqueued | recorded | cleared =>
    exact ⟨fun h => (nomatch h), fun _ h => (nomatch h)⟩
  | _ => exact ⟨fun h => (nomatch h), fun _ h => h⟩

/-- **What the agent has in memory and in its queue**, after a history. -/
structure Agent.Follows (L : Libraries) (m : Machine) (past : Past Agent AgentEvent) (a : Agent) :
    Prop where
  schemaVersion : a.schemaVersion = announced past
  collecting : a.collecting = begun past
  stopped : a.delivery.client = none → announced past = 1 ∧ begun past = none
  carries : a.delivery.Carries L (Made L m past)

namespace Agent.Follows

theorem delivery {e : DeliveryEvent} (h : a.Follows L m past) (hL : L.Lossless)
    (hserde : L.Deserializes) (hdue : ∀ s now, e ≠ .due s now)
    (hm : Delivery.Moves L settings a.delivery e σ') :
    (a.after σ').Follows L m ((.delivery e, a) :: past) := by
  obtain ⟨hends, hgoes⟩ := hm.client
  have hcarries : σ'.Carries L (Made L m ((.delivery e, a) :: past)) :=
    (h.carries.moves hL (fun _ hs => hs.roundTrips hserde)
      (fun s now he => absurd he (hdue s now)) hm).imp fun _ hs => hs.cons _
  unfold after
  cases hended : (AgentEvent.delivery e).Ends with
  | true =>
    rw [if_pos (hends hended)]
    have hnew : announced ((.delivery e, a) :: past) = 1 ∧
        begun ((.delivery e, a) :: past) = none := by
      rw [announced_cons_delivery, begun_cons_delivery, hended]
      exact ⟨rfl, rfl⟩
    exact ⟨hnew.1.symm, hnew.2.symm, fun _ => hnew, hcarries⟩
  | false =>
    have hsame : announced ((.delivery e, a) :: past) = announced past ∧
        begun ((.delivery e, a) :: past) = begun past := by
      rw [announced_cons_delivery, begun_cons_delivery, hended]
      exact ⟨rfl, rfl⟩
    split
    · next hnone =>
      obtain ⟨h1, h2⟩ := h.stopped (hgoes hended hnone)
      exact ⟨(hsame.1.trans h1).symm, (hsame.2.trans h2).symm,
        fun _ => ⟨hsame.1.trans h1, hsame.2.trans h2⟩, hcarries⟩
    · next hsome =>
      exact ⟨h.schemaVersion.trans hsame.1.symm, h.collecting.trans hsame.2.symm,
        fun hnone => absurd hnone hsome, hcarries⟩

theorem answered {version : Nat} (h : a.Follows L m past)
    (hstep : a.answered version = some a') :
    a'.Follows L m ((.answered version, a) :: past) := by
  unfold Agent.answered at hstep
  split at hstep
  · cases hstep
  · next hsome =>
    cases hstep
    exact ⟨rfl, h.collecting, fun hnone => absurd hnone hsome, h.carries.imp fun _ hs => hs.cons _⟩

theorem collect (h : a.Follows L m past) (hstep : a.collect = some a') :
    a'.Follows L m ((.collect, a) :: past) := by
  unfold Agent.collect at hstep
  split at hstep
  · next client _ hclient hidle hnone =>
    cases hstep
    refine ⟨h.schemaVersion, congrArg some h.schemaVersion, fun hgone => ?_,
      h.carries.imp fun _ hs => hs.cons _⟩
    rw [show a.delivery.client = none from hgone] at hclient
    cases hclient
  · cases hstep

theorem collected {cycle : Cycle} {now : Nat} (h : a.Follows L m past)
    (hL : L.Lossless) (hserde : L.Deserializes)
    (hstep : a.collected L settings m cycle now = some a') :
    a'.Follows L m ((.collected cycle now, a) :: past) := by
  unfold Agent.collected at hstep
  split at hstep
  · cases hstep
  · next version hversion =>
    have hbegun : begun past = some version := h.collecting.symm.trans hversion
    have hcollected : (version, cycle) ∈ cyclesOf ((.collected cycle now, a) :: past) := by
      show (version, cycle) ∈ ((begun past).map fun v => (v, cycle)).toList ++ cyclesOf past
      rw [hbegun]
      exact List.mem_cons_self
    have hstopped : ∀ {σ : Delivery}, σ.client = a.delivery.client → σ.client = none →
        announced past = 1 ∧ (none : Option Nat) = none := fun hclient hnone =>
      ⟨(h.stopped (hclient.symm.trans hnone)).1, rfl⟩
    split at hstep
    · cases hstep
      exact ⟨h.schemaVersion, rfl, hstopped rfl, h.carries.imp fun _ hs => hs.cons _⟩
    · next snapshot hok =>
      obtain ⟨σ, hdue, rfl⟩ := Option.map_eq_some_iff.mp hstep
      have hm : Delivery.Moves L settings a.delivery (.due snapshot now) σ :=
        Delivery.step_moves hdue
      have hclient : σ.client = a.delivery.client := by
        cases hm
        rfl
      refine ⟨h.schemaVersion, rfl, hstopped hclient, ?_⟩
      refine (h.carries.imp fun _ hs => hs.cons (.collected cycle now, a)).moves hL
        (fun _ hs => hs.roundTrips hserde) (fun s now' heq => ?_) hm
      cases heq
      exact ⟨version, cycle, hcollected, hok⟩

/-- Every step keeps it. -/
theorem step (h : a.Follows L m past) (hL : L.Lossless) (hserde : L.Deserializes)
    (hstep : a.step L settings m e = some a') : a'.Follows L m ((e, a) :: past) := by
  cases e with
  | answered version => exact h.answered hstep
  | collect => exact h.collect hstep
  | collected cycle now => exact h.collected hL hserde hstep
  | delivery e =>
    have hdue : ∀ s now, e ≠ .due s now := by
      rintro s now rfl
      cases hstep
    have hmoved : (a.delivery.step L settings e).map a.after = some a' := by
      cases e with
      | due s now => exact absurd rfl (hdue s now)
      | _ => exact hstep
    obtain ⟨σ', hσ, rfl⟩ := Option.map_eq_some_iff.mp hmoved
    exact h.delivery hL hserde hdue (Delivery.step_moves hσ)

end Agent.Follows

theorem Agent.Fresh.follows (h : a.Fresh) : a.Follows L m [] := by
  obtain ⟨⟨hspool, -, -, hinventory, hworker⟩, hversion, hcollecting⟩ := h
  refine ⟨hversion, hcollecting, fun _ => ⟨rfl, rfl⟩, ?_, ?_, ?_⟩
  · rw [hspool]
    exact fun _ hf => (nomatch hf)
  · rw [hinventory]
    exact fun _ hs => (nomatch hs)
  · rw [hworker]
    exact fun _ hs => (nomatch hs)

/-- **Nothing partial is queued for a server that would take it for the whole.**
Whatever is queued, about to be queued or with the server, after any history of
the three loops, of crashes and restarts, is a valid snapshot which a collection
of the history made in the version that was announced when it began; and if this
is version 1 the collection was complete. -/
theorem queued_authoritative (hL : L.Lossless) (hserde : L.Deserializes)
    (h : Ran L settings m past a) {s : InventorySnapshot}
    (hs : (∃ f ∈ a.delivery.spool.pending, f.snapshot L = some s) ∨
      s ∈ a.delivery.inventory.offered ∨ s ∈ a.delivery.worker.current) :
    s.validate L = .ok () ∧ ∃ cycle, (s.schemaVersion, cycle) ∈ cyclesOf past ∧
      collectAndSubmit L m s.schemaVersion cycle = .ok s ∧
      (s.schemaVersion = 1 → cycle.collected.complete = true) := by
  have hfollows : a.Follows L m past := h.invariant' (fun a ha => ha.follows)
    fun _ _ _ _ hf hstep => hf.step hL hserde hstep
  have hmade : Made L m past s := by
    rcases hs with ⟨f, hf, hs⟩ | hs | hs
    · exact hfollows.carries.queued f hf s hs
    · exact hfollows.carries.offered s hs
    · exact hfollows.carries.current s hs
  obtain ⟨version, cycle, hmem, hok⟩ := hmade
  obtain ⟨hvalid, rfl, -, hcomplete⟩ := authoritative_of_ok (version_of_mem_cyclesOf hmem) hok
  exact ⟨hvalid, cycle, hmem, hok, hcomplete⟩

namespace Sample

def host : Machine := ⟨"agent_0", "workstation-17", "linux", "x86_64"⟩

/-- A collection of a host without software. -/
def bare : Cycle where
  collected := .empty
  snapshotId := .ok "snap-1"
  collectedAt := .ok "2026-10-06T10:00:00Z"
  environment := ⟨"physical", none, none, none⟩
  onBattery := false
  osRelease := ⟨some "Ubuntu 24.04.1 LTS", some "24.04"⟩
  machineId := none

def bareSnapshot : InventorySnapshot :=
  ⟨1, "snap-1", "agent_0", "2026-10-06T10:00:00Z", "workstation-17", some "linux",
    some "Ubuntu 24.04.1 LTS", some "24.04", some "x86_64", "0.5.0",
    [("env.type", "physical"), ("host.power_source", "ac")], [], [], [], []⟩

/-- The server announces version 2 while the collection runs. -/
def announcedMeanwhile : List AgentEvent :=
  [.delivery (.start true true true), .delivery (.inspect true .done), .collect, .answered 2,
    .collected bare 100]

def agentRun (events : List AgentEvent) : Past Agent AgentEvent × Agent :=
  (replay (Agent.step serde dailyRefresh host) events ([], ⟨fresh, 1, none⟩)).getD
    ([], ⟨fresh, 1, none⟩)

theorem agentRun_ran (events : List AgentEvent) :
    Ran serde dailyRefresh host (agentRun events).1 (agentRun events).2 := by
  have hfresh : (⟨fresh, 1, none⟩ : Agent).Fresh := ⟨⟨rfl, rfl, rfl, rfl, rfl⟩, rfl, rfl⟩
  unfold agentRun
  cases hr : replay (Agent.step serde dailyRefresh host) events ([], ⟨fresh, 1, none⟩) with
  | none => exact .start hfresh
  | some now => exact History.of_replay (.start hfresh) hr

/-- What is queued is of the version the collection was begun with. -/
theorem bare_authoritative : bareSnapshot.validate serde = .ok () ∧
    ∃ cycle, (1, cycle) ∈ cyclesOf (agentRun announcedMeanwhile).1 ∧
      collectAndSubmit serde host 1 cycle = .ok bareSnapshot ∧
      (1 = 1 → cycle.collected.complete = true) :=
  queued_authoritative (fun _ _ => rfl) serde_deserializes (agentRun_ran announcedMeanwhile)
    (.inr (.inl rfl))

end Sample

end Lariska
