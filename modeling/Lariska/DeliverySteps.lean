import Lariska.Delivery

/-!
# What a step of the delivery client does

The steps of the client once more, as a relation with one rule for each thing
that can happen: what had to hold before, and what is different afterwards.
Whatever is said of all runs is said rule by rule.
-/

namespace Lariska

/-! ## The tasks -/

/-- The snapshot the worker has read and not yet left. -/
def WorkerTask.current : WorkerTask → Option InventorySnapshot
  | .submitting snapshot _ => some snapshot
  | .accepted snapshot _ => some snapshot
  | _ => none

/-- The snapshot that is with the server. -/
def WorkerTask.inSubmission : WorkerTask → Option InventorySnapshot
  | .submitting snapshot _ => some snapshot
  | _ => none

/-- The snapshot the server has accepted and the spool still has. -/
def WorkerTask.acknowledged : WorkerTask → Option InventorySnapshot
  | .accepted snapshot _ => some snapshot
  | _ => none

/-- The names the worker still goes by. -/
def WorkerTask.names : WorkerTask → List String
  | .idle => []
  | .inspecting _ => []
  | .next paths => paths
  | .submitting snapshot paths => entryName snapshot.snapshotId :: paths
  | .accepted snapshot paths => entryName snapshot.snapshotId :: paths
  | .removed _ paths => paths
  | .stored _ paths => paths

/-- The snapshot the inventory loop is about to spool. -/
def InventoryTask.offered : InventoryTask → Option InventorySnapshot
  | .idle => none
  | .deciding snapshot _ => some snapshot

/-- The entry the worker reads next. -/
def WorkerTask.toRead : WorkerTask → Option String
  | .inspecting paths => paths.head?
  | .next paths => paths.head?
  | _ => none

/-! ## The rules -/

namespace Delivery

/-- **What a step can do.** -/
inductive Moves (L : Libraries) (settings : Settings) (σ : Delivery) :
    DeliveryEvent → Delivery → Prop where
  | start {readable removable listed : Bool} (hc : σ.client = none) :
      Moves L settings σ (.start readable removable listed) { σ with
        deliveryState := (loadOrDiscardInvalid σ.deliveryState readable removable).2
        client := some ⟨(loadOrDiscardInvalid σ.deliveryState readable removable).1, none⟩
        worker := .inspecting (if listed then σ.spool.pendingPaths.reverse else []) }
  | inspected {client : Client} {path : String} {paths : List String} {moved : FileResult}
      {f : SpoolFile} {snapshot : InventorySnapshot} (hc : σ.client = some client)
      (hw : σ.worker = .inspecting (path :: paths)) (hf : σ.spool.find path = some f)
      (ht : f.snapshot L = some snapshot) :
      Moves L settings σ (.inspect true moved) { σ with
        client := some { client with lastEnqueuedDigest := some (snapshot.contentDigest L) }
        worker := .idle }
  | passedOver {client : Client} {path : String} {paths : List String} {readable : Bool}
      {moved : FileResult} (hc : σ.client = some client)
      (hw : σ.worker = .inspecting (path :: paths))
      (hr : ∀ snapshot, (σ.spool.readPending L path readable moved).1 ≠ .ok (some snapshot)) :
      Moves L settings σ (.inspect readable moved) { σ with
        spool := (σ.spool.readPending L path readable moved).2
        worker := .inspecting paths }
  | inspectedAll {client : Client} {readable : Bool} {moved : FileResult}
      (hc : σ.client = some client) (hw : σ.worker = .inspecting []) :
      Moves L settings σ (.inspect readable moved) { σ with worker := .idle }
  | due {client : Client} {snapshot : InventorySnapshot} {now : Nat}
      (hc : σ.client = some client) (hi : σ.inventory = .idle)
      (hw : ∀ paths, σ.worker ≠ .inspecting paths) :
      Moves L settings σ (.due snapshot now) { σ with
        inventory := .deciding snapshot
          (dueForSubmission settings client.lastAccepted (snapshot.contentDigest L) now) }
  | suppressed {client : Client} {snapshot : InventorySnapshot} {due : Bool} {spooling : Spooling}
      (hc : σ.client = some client) (hi : σ.inventory = .deciding snapshot due)
      (hs : client.suppresses (snapshot.contentDigest L) due = true) :
      Moves L settings σ (.enqueue spooling) { σ with inventory := .idle }
  | tooLarge {client : Client} {snapshot : InventorySnapshot} {due : Bool} {spooling : Spooling}
      (hc : σ.client = some client) (hi : σ.inventory = .deciding snapshot due)
      (hj : maxSnapshotBytes < snapshot.toCanonicalJson.length) :
      Moves L settings σ (.enqueue spooling) { σ with inventory := .idle }
  | notWritten {client : Client} {snapshot : InventorySnapshot} {due effective : Bool}
      {spooling : Spooling} (hc : σ.client = some client)
      (hi : σ.inventory = .deciding snapshot due)
      (hs : client.suppresses (snapshot.contentDigest L) due = false)
      (hj : snapshot.toCanonicalJson.length ≤ maxSnapshotBytes)
      (hwritten : spooling.written = .failed effective) :
      Moves L settings σ (.enqueue spooling) { σ with
        spool := if effective then
          σ.spool.write L snapshot spooling.modified spooling.place else σ.spool
        inventory := .idle }
  | enqueued {client : Client} {snapshot : InventorySnapshot} {due : Bool} {spooling : Spooling}
      (hc : σ.client = some client) (hi : σ.inventory = .deciding snapshot due)
      (hs : client.suppresses (snapshot.contentDigest L) due = false)
      (hj : snapshot.toCanonicalJson.length ≤ maxSnapshotBytes)
      (hwritten : spooling.written = .done) :
      Moves L settings σ (.enqueue spooling) { σ with
        spool := σ.spooled L settings snapshot spooling.modified spooling.place
          spooling.evictable
        client := some { client with lastEnqueuedDigest := some (snapshot.contentDigest L) }
        inventory := .idle }
  | killedSpooling {client : Client} {snapshot : InventorySnapshot} {due : Bool}
      {modified place evicted : Nat} (hc : σ.client = some client)
      (hi : σ.inventory = .deciding snapshot due)
      (hs : client.suppresses (snapshot.contentDigest L) due = false)
      (hj : snapshot.toCanonicalJson.length ≤ maxSnapshotBytes) :
      Moves L settings σ (.killedSpooling modified place evicted) { σ with
        spool := σ.spooled L settings snapshot modified place (some evicted) }.crash
  | listed {client : Client} (hc : σ.client = some client) (hw : σ.worker = .idle) :
      Moves L settings σ (.list true) { σ with worker := .next σ.spool.pendingPaths }
  | notListed {client : Client} (hc : σ.client = some client) (hw : σ.worker = .idle) :
      Moves L settings σ (.list false) { σ with worker := .idle }
  | read {path : String} {paths : List String} {moved : FileResult} {f : SpoolFile}
      {snapshot : InventorySnapshot} (hw : σ.worker = .next (path :: paths))
      (hf : σ.spool.find path = some f) (ht : f.snapshot L = some snapshot) :
      Moves L settings σ (.read true moved) { σ with worker := .submitting snapshot paths }
  | skipped {path : String} {paths : List String} {readable : Bool} {moved : FileResult}
      (hw : σ.worker = .next (path :: paths))
      (hr : (σ.spool.readPending L path readable moved).1 = .ok none) :
      Moves L settings σ (.read readable moved) { σ with
        spool := (σ.spool.readPending L path readable moved).2
        worker := .next paths }
  | notRead {path : String} {paths : List String} {readable : Bool} {moved : FileResult}
      (hw : σ.worker = .next (path :: paths))
      (hr : (σ.spool.readPending L path readable moved).1 = .error ()) :
      Moves L settings σ (.read readable moved) { σ with
        spool := (σ.spool.readPending L path readable moved).2
        worker := .idle }
  | accepted {snapshot : InventorySnapshot} {paths : List String}
      (hw : σ.worker = .submitting snapshot paths) :
      Moves L settings σ (.answer .accepted) { σ with
        server := snapshot :: σ.server
        worker := .accepted snapshot paths }
  | lost {snapshot : InventorySnapshot} {paths : List String}
      (hw : σ.worker = .submitting snapshot paths) :
      Moves L settings σ (.answer .lost) { σ with server := snapshot :: σ.server }
  | rejected {snapshot : InventorySnapshot} {paths : List String} {why : Rejection}
      {moved : FileResult} (hw : σ.worker = .submitting snapshot paths) :
      Moves L settings σ (.answer (.rejected why moved)) { σ with
        spool := if moved.effective then σ.spool.quarantineById snapshot.snapshotId else σ.spool
        worker := if moved = .done then .next paths else .idle }
  | refused {snapshot : InventorySnapshot} {paths : List String}
      (hw : σ.worker = .submitting snapshot paths) :
      Moves L settings σ (.answer .refused) { σ with worker := .idle }
  | removed {snapshot : InventorySnapshot} {paths : List String} {result : FileResult}
      (hw : σ.worker = .accepted snapshot paths) :
      Moves L settings σ (.remove result) { σ with
        spool := if result.effective then σ.spool.remove snapshot.snapshotId else σ.spool
        worker := if result = .done then .removed (snapshot.contentDigest L) paths else .idle }
  | stored {digest : String} {paths : List String} {now : Nat} {result : FileResult}
      (hw : σ.worker = .removed digest paths) :
      Moves L settings σ (.store now result) { σ with
        deliveryState := if result.effective then
          some (AcceptedState.document ⟨digest, now⟩) else σ.deliveryState
        worker := .stored ⟨digest, now⟩ paths }
  | recorded {client : Client} {accepted : AcceptedState} {paths : List String}
      (hc : σ.client = some client) (hw : σ.worker = .stored accepted paths) :
      Moves L settings σ .record { σ with
        client := some { client with lastAccepted := some accepted }
        worker := .next paths }
  | cleared {client : Client} {listed : Bool} (hc : σ.client = some client)
      (hw : σ.worker = .next []) :
      Moves L settings σ (.clear listed) { σ with
        client := some (if listed = true ∧ σ.spool.pendingFiles = [] then
          { client with lastEnqueuedDigest := none } else client)
        worker := .idle }
  | crash : Moves L settings σ .crash σ.crash

variable {L : Libraries} {settings : Settings} {σ σ' : Delivery} {e : DeliveryEvent}

theorem inspect_moves {readable : Bool} {moved : FileResult}
    (h : σ.inspect L readable moved = some σ') :
    Moves L settings σ (.inspect readable moved) σ' := by
  unfold inspect at h
  split at h
  · next client hc hw =>
    cases h
    exact .inspectedAll hc hw
  · next client path paths hc hw =>
    split at h
    next read spool hread =>
    split at h
    · obtain ⟨rfl, rfl, f, hf, ht⟩ := Spool.readPending_eq_some hread
      cases h
      exact .inspected hc hw hf ht
    · next hr =>
      cases h
      have hspool : (σ.spool.readPending L path readable moved).2 = spool := by rw [hread]
      rw [← hspool]
      exact .passedOver hc hw fun snapshot hs => hr snapshot (by rw [← hs, hread])
  · cases h

theorem read_moves {readable : Bool} {moved : FileResult}
    (h : σ.read L readable moved = some σ') : Moves L settings σ (.read readable moved) σ' := by
  unfold read at h
  split at h
  · next path paths hw =>
    split at h
    next read spool hread =>
    have hspool : (σ.spool.readPending L path readable moved).2 = spool := by rw [hread]
    split at h
    · obtain ⟨rfl, rfl, f, hf, ht⟩ := Spool.readPending_eq_some hread
      cases h
      exact .read hw hf ht
    · cases h
      rw [← hspool]
      exact .skipped hw (by rw [hread])
    · cases h
      rw [← hspool]
      exact .notRead hw (by rw [hread])
  · cases h

theorem enqueue_moves {spooling : Spooling} (h : σ.enqueue L settings spooling = some σ') :
    Moves L settings σ (.enqueue spooling) σ' := by
  unfold enqueue at h
  split at h
  · next client snapshot due hc hi =>
    dsimp only at h
    split at h
    · next hs =>
      cases h
      exact .suppressed hc hi hs
    · next hs =>
      have hs : client.suppresses (snapshot.contentDigest L) due = false := by simpa using hs
      split at h
      · next hj =>
        cases h
        exact .tooLarge hc hi hj
      · next hj =>
        split at h
        · next effective hwritten =>
          cases h
          exact .notWritten hc hi hs (Nat.le_of_not_lt hj) hwritten
        · next hwritten =>
          cases h
          exact .enqueued hc hi hs (Nat.le_of_not_lt hj) hwritten
  · cases h

theorem killedSpooling_moves {modified place evicted : Nat}
    (h : σ.killedSpooling L settings modified place evicted = some σ') :
    Moves L settings σ (.killedSpooling modified place evicted) σ' := by
  unfold killedSpooling at h
  split at h
  · next client snapshot due hc hi =>
    split at h
    · cases h
    · next hn =>
      rw [not_or] at hn
      cases h
      exact .killedSpooling hc hi (by simpa using hn.1) (Nat.le_of_not_lt hn.2)
  · cases h

theorem answer_moves {answer : Answer} (h : σ.answer answer = some σ') :
    Moves L settings σ (.answer answer) σ' := by
  unfold Delivery.answer at h
  split at h
  · next snapshot paths hw =>
    cases answer with
    | accepted => cases h; exact .accepted hw
    | lost => cases h; exact .lost hw
    | rejected why moved => cases h; exact .rejected hw
    | refused => cases h; exact .refused hw
  · cases h

/-- **Every step is one of these.** -/
theorem step_moves (h : σ.step L settings e = some σ') : Moves L settings σ e σ' := by
  cases e with
  | start readable removable listed =>
    simp only [step, Delivery.start] at h
    split at h
    · cases h
    · next hc => cases h; exact .start hc
  | inspect readable moved => exact inspect_moves h
  | due snapshot now =>
    simp only [step, Delivery.due] at h
    split at h
    · cases h
    · next client hc hi hw =>
      cases h
      exact .due hc hi hw
    · cases h
  | enqueue spooling => exact enqueue_moves h
  | killedSpooling modified place evicted => exact killedSpooling_moves h
  | list listed =>
    simp only [step, Delivery.list] at h
    split at h
    · next hc hw =>
      cases h
      cases listed with
      | true => exact .listed hc hw
      | false => exact .notListed hc hw
    · cases h
  | read readable moved => exact read_moves h
  | answer answer => exact answer_moves h
  | remove result =>
    simp only [step, Delivery.remove] at h
    split at h
    · next hw => cases h; exact .removed hw
    · cases h
  | store now result =>
    simp only [step, Delivery.store] at h
    split at h
    · next hw => cases h; exact .stored hw
    · cases h
  | record =>
    simp only [step, Delivery.record] at h
    split at h
    · next hc hw => cases h; exact .recorded hc hw
    · cases h
  | clear listed =>
    simp only [step, Delivery.clear] at h
    split at h
    · next hc hw => cases h; exact .cleared hc hw
    · cases h
  | crash => cases h; exact .crash

end Delivery

/-! ## Faults -/

/-- No file operation of the step fails. -/
def DeliveryEvent.Faultless : DeliveryEvent → Prop
  | .start readable _ listed => readable = true ∧ listed = true
  | .inspect readable moved => readable = true ∧ moved = .done
  | .enqueue spooling => spooling.written = .done ∧ spooling.evictable = none
  | .list listed => listed = true
  | .read readable moved => readable = true ∧ moved = .done
  | .answer (.rejected _ moved) => moved = .done
  | .remove result => result = .done
  | .store _ result => result = .done
  | .clear listed => listed = true
  | _ => True

instance (e : DeliveryEvent) : Decidable e.Faultless := by
  unfold DeliveryEvent.Faultless
  rcases e with ⟨⟩
  case answer reply => rcases reply with ⟨⟩ <;> infer_instance
  all_goals infer_instance

/-! ## Runs on fixed events -/

namespace Sample

/-- A snapshot of a host without software. -/
def snapshot (id hostname : String) : InventorySnapshot :=
  ⟨1, id, "agent", "2026-01-01T00:00:00Z", hostname, none, none, none, none, "0.1.0", [], [], [], [],
    []⟩

/-- Libraries that carry some snapshots, with their digests. -/
def carrying (snapshots : List (InventorySnapshot × String)) : Libraries :=
  libraries (snapshots.map fun s => (s.1.digestPayload, s.2))
    (snapshots.map fun s => (s.1.toCanonicalJson, s.1))

theorem carrying_lossless (snapshots : List (InventorySnapshot × String)) :
    (carrying snapshots).Lossless := fun _ _ => rfl

/-- An agent without anything yet. -/
def fresh : Delivery := ⟨⟨[], []⟩, none, none, .idle, .idle, []⟩

def dailyRefresh : Settings := ⟨10, 86400⟩

/-- The history a list of events makes of a state, and where that ends. -/
def deliver (L : Libraries) (settings : Settings) (σ : Delivery) (es : List DeliveryEvent) :
    Past Delivery DeliveryEvent × Delivery :=
  (replay (Delivery.step L settings) es ([], σ)).getD ([], σ)

theorem deliver_history {init : Delivery → Prop} {σ : Delivery} (h : init σ) (L : Libraries)
    (settings : Settings) (es : List DeliveryEvent) :
    History init (fun _ σ e σ' => σ.step L settings e = some σ') (deliver L settings σ es).1
      (deliver L settings σ es).2 := by
  unfold deliver
  cases hr : replay (Delivery.step L settings) es ([], σ) with
  | none => exact .start h
  | some now => exact History.of_replay (.start h) hr

end Sample

end Lariska
