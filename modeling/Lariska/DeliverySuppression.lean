import Lariska.DeliveryOrder
import Lariska.DrainPass
import Lariska.JsonSize

/-!
# When an unchanged snapshot is suppressed

`enqueue_if_needed` leaves a snapshot out where it takes it to be the state
the server has, or is about to get. It decides by what the client remembers:
the state accepted last, in memory and on disk, and the digest enqueued last.
This module says what these stand for, in every state of every run without
file faults (`Tracks`), and what it takes for that to be enough: for the runs
of one task after the other (`suppressed_in_turn`), and for any interleaving of
the two (`suppressed_in_any_order`).
-/

namespace Lariska

/-! ## What is known -/

/-- The digest of the newest entry. -/
def Spool.newestDigest (L : Libraries) (s : Spool) : Option String :=
  s.newest.bind fun f => (f.snapshot L).map fun t => t.contentDigest L

/-- The digest of what the server accepted last. -/
def Delivery.serverDigest (L : Libraries) (σ : Delivery) : Option String :=
  σ.server.head?.map fun t => t.contentDigest L

/-- The digest of the state on disk. -/
def Delivery.storedDigest (σ : Delivery) : Option String :=
  (loaded σ.deliveryState).map AcceptedState.digest

/-- The digest of the state the client takes to be accepted. -/
def Client.acceptedDigest (c : Client) : Option String := c.lastAccepted.map AcceptedState.digest

/-- Nothing is known, or what is so. -/
def Knows (known truth : Option String) : Prop := known = none ∨ known = truth

instance (known truth : Option String) : Decidable (Knows known truth) := by
  unfold Knows
  infer_instance

theorem Knows.trans {a b c : Option String} (h : Knows a b) (h' : Knows b c) : Knows a c := by
  rcases h with rfl | rfl
  · exact .inl rfl
  · exact h'

/-- What the worker has been told is accepted and has not yet recorded. -/
def WorkerTask.unrecorded (L : Libraries) : WorkerTask → Option String
  | .accepted snapshot _ => some (snapshot.contentDigest L)
  | .removed digest _ => some digest
  | .stored state _ => some state.digest
  | _ => none

/-- ... and has stored. -/
def WorkerTask.recording : WorkerTask → Option String
  | .stored state _ => some state.digest
  | _ => none

theorem WorkerTask.unrecorded_of_recording {L : Libraries} {w : WorkerTask} {digest : String}
    (h : w.recording = some digest) : w.unrecorded L = some digest := by
  cases w with
  | stored accepted paths => exact h
  | _ => cases h

/-- The digest of the entry rejected last, where it is not what the server has,
until the digest enqueued last is cleared. -/
def rejectedLast (L : Libraries) : Past Delivery DeliveryEvent → Option String
  | [] => none
  | (.start _ _ _, _) :: _ => none
  | (.clear _, _) :: _ => none
  | (.answer (.rejected _ _), σ) :: _ =>
    (σ.worker.inSubmission.map fun t => t.contentDigest L).filter
      fun digest => σ.serverDigest L ≠ some digest
  | _ :: past => rejectedLast L past

/-! ## What is suppressed -/

/-- The digest of the snapshot the inventory loop is about to suppress. -/
def Delivery.suppressed (L : Libraries) (σ : Delivery) : Option String :=
  match σ.client, σ.inventory with
  | some client, .deciding snapshot due =>
    if client.suppresses (snapshot.contentDigest L) due then some (snapshot.contentDigest L)
    else none
  | _, _ => none

/-- **The state is there already**: the newest entry has its digest, or the
spool is empty and the server has it. -/
def Delivery.UpToDate (L : Libraries) (σ : Delivery) (digest : String) : Prop :=
  σ.spool.newestDigest L = some digest ∨
    σ.spool.pendingFiles = [] ∧ σ.serverDigest L = some digest

/-- A snapshot is suppressed only where its state is there already. -/
def DeliveryEvent.SuppressesRightly (L : Libraries) (σ : Delivery) : DeliveryEvent → Prop
  | .enqueue _ => ∀ digest ∈ σ.suppressed L, σ.UpToDate L digest
  | _ => True

/-! ## What to keep away from -/

/-- Between the two halves of `enqueue_if_needed` nothing has happened that
makes the first answer void: with nothing queued, the state that made the
snapshot not due is still the one accepted last; with its digest queued and the
spool empty, it is not that of an entry the server has just rejected. -/
def DeliveryEvent.Timely (L : Libraries) (past : Past Delivery DeliveryEvent) (σ : Delivery) :
    DeliveryEvent → Prop
  | .enqueue _ => ∀ client ∈ σ.client, ∀ snapshot ∈ σ.inventory.offered,
      (client.lastEnqueuedDigest = none → σ.inventory = .deciding snapshot false →
        client.acceptedDigest = some (snapshot.contentDigest L)) ∧
      (client.lastEnqueuedDigest = some (snapshot.contentDigest L) → σ.spool.pending = [] →
        rejectedLast L past ≠ some (snapshot.contentDigest L))
  | _ => True

/-- When the last entry leaves the spool, what the server has is recorded: a
quarantine does not empty it while the client takes another state to be
accepted, and the process does not die between the removal of the last entry
and the store of its state while another is stored. -/
def DeliveryEvent.Recorded (L : Libraries) (σ : Delivery) : DeliveryEvent → Prop
  | .answer (.rejected _ _) => ∀ t ∈ σ.worker.inSubmission,
      (σ.spool.quarantineById t.snapshotId).pending = [] →
        ∀ client ∈ σ.client, Knows client.acceptedDigest (σ.serverDigest L)
  | .crash => σ.spool.pending = [] → σ.worker.recording = none →
      ∀ digest ∈ σ.worker.unrecorded L, Knows σ.storedDigest (some digest)
  | _ => True

/-! ## The invariant -/

/-- **What the client remembers stands for.** -/
structure Delivery.Tracks (L : Libraries) (past : Past Delivery DeliveryEvent) (σ : Delivery) :
    Prop where
  /-- A client that is started on an empty spool knows what the server has. -/
  stopped : σ.client = none → σ.spool.pending = [] → Knows σ.storedDigest (σ.serverDigest L)
  inspecting : ∀ client ∈ σ.client, ∀ paths, σ.worker = .inspecting paths →
    client.lastEnqueuedDigest = none
  unqueued : ∀ client ∈ σ.client, client.lastEnqueuedDigest = none →
    (∃ paths, σ.worker = .inspecting paths) ∨
      σ.spool.pending = [] ∧ σ.worker.unrecorded L = none
  /-- What was enqueued last is the newest entry, or was answered for. -/
  queued : ∀ client ∈ σ.client, ∀ digest, client.lastEnqueuedDigest = some digest →
    σ.spool.newestDigest L = some digest ∨ σ.spool.pending = [] ∧
      (σ.serverDigest L = some digest ∨ rejectedLast L past = some digest)
  accepted : ∀ client ∈ σ.client, σ.spool.pending = [] → σ.worker.unrecorded L = none →
    Knows client.acceptedDigest (σ.serverDigest L)
  unrecorded : ∀ digest ∈ σ.worker.unrecorded L, σ.serverDigest L = some digest
  stored : ∀ client ∈ σ.client, σ.worker.recording = none →
    Knows σ.storedDigest client.acceptedDigest
  recording : ∀ digest ∈ σ.worker.recording, Knows σ.storedDigest (some digest)

variable {L : Libraries} {settings : Settings} {past : Past Delivery DeliveryEvent}
variable {σ σ' : Delivery} {e : DeliveryEvent}

/-! ### The state on disk -/

theorem toAsciiLowercase_of_sha256Hex {digest : String} (h : sha256Hex digest = true) :
    toAsciiLowercase digest = digest := by
  have hlower : ∀ c ∈ digest.toList, c.toLower = c :=
    forall_mem_of_sha256Hex (by decide +kernel) h
  have hsame : digest.toList.map Char.toLower = digest.toList :=
    (List.map_congr_left hlower).trans (List.map_id _)
  rw [toAsciiLowercase, hsame, String.ofList_toList]

/-- What is stored is read back, where the clock was not at its origin. -/
theorem loaded_document {digest : String} (h : sha256Hex digest = true) (now : Nat) :
    Knows ((loaded (some (AcceptedState.document ⟨digest, now⟩))).map AcceptedState.digest)
      (some digest) := by
  have hload : StateDocument.load (AcceptedState.document ⟨digest, now⟩) =
      if now ≠ 0 then .ok ⟨digest, now⟩
      else .error "delivery state contains an invalid acceptance timestamp" := by
    obtain ⟨hsize, hhex⟩ := Bool.and_eq_true_iff.mp h
    have hdigits : (Json.bytes digest).all isHexDigit = true := by
      rw [List.all_eq_true] at hhex ⊢
      exact fun b hb => Bool.or_eq_true_iff.mpr (.inl (hhex b hb))
    unfold StateDocument.load AcceptedState.document demand
    rw [if_pos rfl, if_pos ⟨beq_iff_eq.mp hsize, hdigits⟩, toAsciiLowercase_of_sha256Hex h]
    by_cases hnow : now ≠ 0
    · rw [if_pos hnow, if_pos hnow]
      rfl
    · rw [if_neg hnow, if_neg hnow]
      rfl
  rw [loaded, Option.bind_some, hload]
  split
  · exact .inr rfl
  · exact .inl rfl

/-- A client that is made takes for accepted what is on disk, and leaves that. -/
theorem loadOrDiscardInvalid_loaded (document : Option StateDocument) (removable : Bool) :
    (loadOrDiscardInvalid document true removable).1 = loaded document ∧
      loaded (loadOrDiscardInvalid document true removable).2 = loaded document := by
  unfold loadOrDiscardInvalid
  rw [if_pos rfl]
  cases h : loaded document with
  | some accepted => exact ⟨rfl, h⟩
  | none =>
    cases removable with
    | true => exact ⟨rfl, rfl⟩
    | false => exact ⟨rfl, h⟩

/-! ### Keeping it -/

theorem Spool.newestDigest_eq_some {s : Spool} {digest : String} :
    s.newestDigest L = some digest ↔
      ∃ f t, s.newest = some f ∧ f.snapshot L = some t ∧ t.contentDigest L = digest := by
  unfold Spool.newestDigest
  rw [Option.bind_eq_some_iff]
  simp only [Option.map_eq_some_iff]
  exact ⟨fun ⟨f, hf, t, ht, hd⟩ => ⟨f, t, hf, ht, hd⟩, fun ⟨f, t, hf, ht, hd⟩ => ⟨f, hf, t, ht, hd⟩⟩

/-- Events after which the entry rejected last is the same. -/
def DeliveryEvent.KeepsRejected : DeliveryEvent → Prop
  | .start _ _ _ | .clear _ | .answer (.rejected _ _) => False
  | _ => True

theorem rejectedLast_cons (h : e.KeepsRejected) :
    rejectedLast L ((e, σ) :: past) = rejectedLast L past := by
  cases e with
  | start readable removable listed => exact h.elim
  | clear listed => exact h.elim
  | answer answer =>
    cases answer with
    | rejected why moved => exact h.elim
    | _ => rfl
  | _ => rfl

namespace Delivery.Tracks

/-- A step of the tasks only. -/
theorem stays (h : σ.Tracks L past) (he : e.KeepsRejected) (hspool : σ'.spool = σ.spool)
    (hstate : σ'.deliveryState = σ.deliveryState) (hclient : σ'.client = σ.client)
    (hserver : σ'.server = σ.server)
    (hinspecting : (∃ paths, σ.worker = .inspecting paths) → σ'.worker = σ.worker)
    (hnew : ∀ paths, σ'.worker = .inspecting paths → σ.worker = .inspecting paths)
    (hunrecorded : σ'.worker.unrecorded L = σ.worker.unrecorded L)
    (hrecording : σ'.worker.recording = σ.worker.recording) :
    σ'.Tracks L ((e, σ) :: past) := by
  have hv : σ'.serverDigest L = σ.serverDigest L := by
    unfold Delivery.serverDigest
    rw [hserver]
  have hp : σ'.storedDigest = σ.storedDigest := by
    unfold Delivery.storedDigest
    rw [hstate]
  constructor
  · rw [hclient, hspool, hp, hv]
    exact h.stopped
  · rw [hclient]
    exact fun client hc paths hw => h.inspecting client hc paths (hnew paths hw)
  · rw [hclient, hspool, hunrecorded]
    intro client hc hq
    rcases h.unqueued client hc hq with hw | hempty
    · exact .inl (by rwa [hinspecting hw])
    · exact .inr hempty
  · rw [hclient, hspool, hv, rejectedLast_cons he]
    exact h.queued
  · rw [hclient, hspool, hunrecorded, hv]
    exact h.accepted
  · rw [hunrecorded, hv]
    exact h.unrecorded
  · rw [hclient, hrecording, hp]
    exact h.stored
  · rw [hrecording, hp]
    exact h.recording

/-- While the worker has an entry at hand, something is queued. -/
theorem enqueued (h : σ.Tracks L past) (hq : σ.Queues L) (hcurrent : σ.worker.current ≠ none)
    {client : Client} (hc : client ∈ σ.client) : client.lastEnqueuedDigest ≠ none := by
  intro hnone
  rcases h.unqueued client hc hnone with ⟨paths, hw⟩ | ⟨hempty, -⟩
  · rw [hw] at hcurrent
    exact hcurrent rfl
  · exact hq.present hcurrent hempty

/-- The server accepts the entry at hand. -/
theorem serves (h : σ.Tracks L past) (hq : σ.Queues L) {t : InventorySnapshot}
    {paths : List String} (hw : σ.worker = .submitting t paths) (hspool : σ'.spool = σ.spool)
    (hstate : σ'.deliveryState = σ.deliveryState)
    (hclient : σ'.client = σ.client) (hnew : ∀ paths, σ'.worker ≠ .inspecting paths)
    (hunrecorded : ∀ digest ∈ σ'.worker.unrecorded L, σ'.serverDigest L = some digest)
    (hrecording : σ'.worker.recording = none) : σ'.Tracks L ((e, σ) :: past) := by
  have hcurrent : σ.worker.current ≠ none := by rw [hw]; exact Option.some_ne_none _
  have hpresent : σ'.spool.pending ≠ [] := hspool ▸ hq.present hcurrent
  refine ⟨fun _ hempty => absurd hempty hpresent, fun _ _ paths hp => absurd hp (hnew paths),
    fun client hc hn => ?_, fun client hc digest hd => ?_, fun _ _ hempty => absurd hempty hpresent,
    hunrecorded, fun client hc _ => ?_, fun _ hr => by rw [hrecording] at hr; cases hr⟩
  · exact absurd hn (h.enqueued hq hcurrent (hclient ▸ hc))
  · rcases h.queued client (hclient ▸ hc) digest hd with hnewest | ⟨hempty, -⟩
    · exact .inl (hspool ▸ hnewest)
    · exact absurd hempty (hspool ▸ hpresent)
  · unfold Delivery.storedDigest
    rw [hstate]
    exact h.stored client (hclient ▸ hc) (by rw [hw]; rfl)

/-- When the entry at hand has left, what was enqueued last is still the newest,
or was that entry and the last. -/
theorem queued_without (h : σ.Tracks L past) (hq : σ.Queues L) (hk : σ.Kept L)
    {t : InventorySnapshot} (ht : t ∈ σ.worker.current) {client : Client}
    (hc : client ∈ σ.client) {digest : String} (hd : client.lastEnqueuedDigest = some digest) :
    (σ.spool.without (entryNames t.snapshotId)).newestDigest L = some digest ∨
      (σ.spool.without (entryNames t.snapshotId)).pending = [] ∧ t.contentDigest L = digest := by
  have hcurrent : σ.worker.current ≠ none := fun hn => by rw [hn] at ht; cases ht
  have hnewest : σ.spool.newestDigest L = some digest :=
    (h.queued client hc digest hd).resolve_right fun hempty => hq.present hcurrent hempty.1
  rcases hq.newest_without hk ht with hsame | ⟨hempty, f, hf, hft⟩
  · left
    unfold Spool.newestDigest
    rw [hsame]
    exact hnewest
  · obtain ⟨g, u, hg, hgu, hdigest⟩ := Spool.newestDigest_eq_some.mp hnewest
    cases hf.symm.trans hg
    cases hft.symm.trans hgu
    exact .inr ⟨hempty, hdigest⟩

theorem start (h : σ.Tracks L past) {removable listed : Bool} {paths : List String}
    (hc : σ.client = none) :
    Delivery.Tracks L ((.start true removable listed, σ) :: past) { σ with
      deliveryState := (loadOrDiscardInvalid σ.deliveryState true removable).2
      client := some ⟨(loadOrDiscardInvalid σ.deliveryState true removable).1, none⟩
      worker := .inspecting paths } := by
  obtain ⟨hmemory, hdisk⟩ := loadOrDiscardInvalid_loaded σ.deliveryState removable
  rw [hmemory]
  refine ⟨fun hn => (nomatch hn), fun client hmem _ _ => ?_, fun _ _ _ => .inl ⟨paths, rfl⟩,
    fun client hmem digest hd => ?_, fun client hmem hempty _ => ?_, fun _ hd => (nomatch hd),
    fun client hmem _ => ?_, fun _ hd => (nomatch hd)⟩
  · cases hmem
    rfl
  · cases hmem
    cases hd
  · cases hmem
    exact h.stopped hc hempty
  · cases hmem
    exact .inr (congrArg (Option.map AcceptedState.digest) hdisk)

theorem inspected (h : σ.Tracks L past) (hq : σ.Queues L) {client : Client} {path : String}
    {paths : List String} {f : SpoolFile} {t : InventorySnapshot} (hc : σ.client = some client)
    (hw : σ.worker = .inspecting (path :: paths)) (hf : σ.spool.find path = some f)
    (ht : f.snapshot L = some t) :
    Delivery.Tracks L ((e, σ) :: past) { σ with
      client := some { client with lastEnqueuedDigest := some (t.contentDigest L) }
      worker := .idle } := by
  have hnewest := hq.newest_inspected hw hf
  have hpresent : σ.spool.pending ≠ [] :=
    List.ne_nil_of_mem (hq.ordered.newest_eq_some.mp hnewest).1
  refine ⟨fun hn => (nomatch hn), fun _ _ _ hp => (nomatch hp), fun other hmem hn => ?_,
    fun other hmem digest hd => .inl ?_, fun _ _ hempty => absurd hempty hpresent,
    fun _ hd => (nomatch hd), fun other hmem _ => ?_, fun _ hd => (nomatch hd)⟩
  · cases hmem
    cases hn
  · cases hmem
    exact Spool.newestDigest_eq_some.mpr ⟨f, t, hnewest, ht, Option.some.inj hd⟩
  · cases hmem
    exact h.stored client hc (by rw [hw]; rfl)

theorem inspectedAll (h : σ.Tracks L past) (hq : σ.Queues L) (hw : σ.worker = .inspecting [])
    (hkeeps : e.KeepsRejected) : Delivery.Tracks L ((e, σ) :: past) { σ with worker := .idle } := by
  refine ⟨h.stopped, fun _ _ _ hp => (nomatch hp), fun _ _ _ => .inr ⟨hq.empty_inspected hw, rfl⟩,
    ?_, fun client hc hempty _ => h.accepted client hc hempty (by rw [hw]; rfl),
    fun _ hd => (nomatch hd), fun client hc _ => h.stored client hc (by rw [hw]; rfl),
    fun _ hd => (nomatch hd)⟩
  rw [rejectedLast_cons hkeeps]
  exact h.queued

theorem spools (h : σ.Tracks L past) (hq : σ.Queues L) (hk : σ.Kept L) (hstaged : σ.Staged)
    (hL : L.Lossless) {client : Client} {snapshot : InventorySnapshot} {due : Bool}
    {modified place : Nat} (evictable : Option Nat) (hc : σ.client = some client)
    (hi : σ.inventory = .deciding snapshot due)
    (hj : snapshot.toCanonicalJson.length ≤ maxSnapshotBytes)
    (hlater : ∀ f ∈ σ.spool.pending, f.modified < modified) :
    Delivery.Tracks L ((e, σ) :: past) { σ with
      spool := σ.spooled L settings snapshot modified place evictable
      client := some { client with lastEnqueuedDigest := some (snapshot.contentDigest L) }
      inventory := .idle } := by
  obtain ⟨hordered, hnewest, -, -⟩ := Queues.spooled settings place hq hk hL hi hj hlater evictable
  have hpresent := List.ne_nil_of_mem (hordered.newest_eq_some.mp hnewest).1
  have hfile := (hq.offered snapshot (by rw [hi]; rfl)).snapshot_entryFile hL hj modified
  refine ⟨fun hn => (nomatch hn), fun _ _ paths hp => ?_, fun other hmem hn => ?_,
    fun other hmem digest hd => .inl ?_, fun _ _ hempty => absurd hempty hpresent, h.unrecorded,
    fun other hmem hr => ?_, h.recording⟩
  · rcases hstaged.apart with hidle | hn
    · rw [hi] at hidle
      cases hidle
    · exact absurd hp (hn paths)
  · cases hmem
    cases hn
  · cases hmem
    exact Spool.newestDigest_eq_some.mpr ⟨_, snapshot, hnewest, hfile, Option.some.inj hd⟩
  · cases hmem
    exact h.stored client hc hr

theorem rejects (h : σ.Tracks L past) (hq : σ.Queues L) (hk : σ.Kept L) (hstaged : σ.Staged)
    {t : InventorySnapshot} {paths : List String} {why : Rejection} {moved : FileResult}
    (hw : σ.worker = .submitting t paths)
    (hrecorded : (σ.spool.quarantineById t.snapshotId).pending = [] →
      ∀ client ∈ σ.client, Knows client.acceptedDigest (σ.serverDigest L)) :
    Delivery.Tracks L ((.answer (.rejected why moved), σ) :: past) { σ with
      spool := σ.spool.quarantineById t.snapshotId
      worker := .next paths } := by
  have hcurrent : t ∈ σ.worker.current := by rw [hw]; rfl
  have hsome : σ.worker.current ≠ none := by rw [hw]; exact Option.some_ne_none _
  refine ⟨fun hn => ?_, fun _ _ _ hp => (nomatch hp), fun client hc hn => ?_,
    fun client hc digest hd => ?_, fun client hc hempty _ => hrecorded hempty client hc,
    fun _ hd => (nomatch hd), fun client hc _ => h.stored client hc (by rw [hw]; rfl),
    fun _ hd => (nomatch hd)⟩
  · rw [(hstaged.stopped hn).2] at hsome
    exact absurd rfl hsome
  · exact absurd hn (h.enqueued hq hsome hc)
  · rcases h.queued_without hq hk hcurrent hc hd with hnewest | ⟨hempty, rfl⟩
    · exact .inl hnewest
    · refine .inr ⟨hempty, ?_⟩
      -- The server may have the state of the entry it rejects.
      by_cases hserver : σ.serverDigest L = some (t.contentDigest L)
      · exact .inl hserver
      · right
        rw [rejectedLast, hw]
        exact Option.filter_eq_some_iff.mpr ⟨rfl, decide_eq_true hserver⟩

theorem removes (h : σ.Tracks L past) (hq : σ.Queues L) (hk : σ.Kept L) (hstaged : σ.Staged)
    {t : InventorySnapshot} {paths : List String} (hw : σ.worker = .accepted t paths) :
    Delivery.Tracks L ((.remove .done, σ) :: past) { σ with
      spool := σ.spool.remove t.snapshotId
      worker := .removed (t.contentDigest L) paths } := by
  have hcurrent : t ∈ σ.worker.current := by rw [hw]; rfl
  have hsome : σ.worker.current ≠ none := by rw [hw]; exact Option.some_ne_none _
  have hserver : σ.serverDigest L = some (t.contentDigest L) := h.unrecorded _ (by rw [hw]; rfl)
  refine ⟨fun hn => ?_, fun _ _ _ hp => (nomatch hp), fun client hc hn => ?_,
    fun client hc digest hd => ?_, fun _ _ _ hu => (nomatch hu), fun digest hd => ?_,
    fun client hc _ => h.stored client hc (by rw [hw]; rfl), fun _ hd => (nomatch hd)⟩
  · rw [(hstaged.stopped hn).2] at hsome
    exact absurd rfl hsome
  · exact absurd hn (h.enqueued hq hsome hc)
  · rcases h.queued_without hq hk hcurrent hc hd with hnewest | ⟨hempty, rfl⟩
    · exact .inl hnewest
    · exact .inr ⟨hempty, .inl hserver⟩
  · cases hd
    exact hserver

theorem stores (h : σ.Tracks L past) (hstaged : σ.Staged) {digest : String} {paths : List String}
    {now : Nat} (hw : σ.worker = .removed digest paths) :
    Delivery.Tracks L ((.store now .done, σ) :: past) { σ with
      deliveryState := some (AcceptedState.document ⟨digest, now⟩)
      worker := .stored ⟨digest, now⟩ paths } := by
  have hserver : σ.serverDigest L = some digest := h.unrecorded _ (by rw [hw]; rfl)
  refine ⟨fun hn => ?_, fun _ _ _ hp => (nomatch hp), fun client hc hn => ?_, h.queued,
    fun _ _ _ hu => (nomatch hu), fun _ hd => ?_, fun _ _ hr => (nomatch hr), fun _ hd => ?_⟩
  · rw [(hstaged.stopped hn).2] at hw
    cases hw
  · rcases h.unqueued client hc hn with ⟨_, hp⟩ | ⟨-, hu⟩
    · rw [hw] at hp
      cases hp
    · rw [hw] at hu
      cases hu
  · cases hd
    exact hserver
  · cases hd
    obtain ⟨t, -, ht⟩ := Option.map_eq_some_iff.mp hserver
    exact loaded_document (ht ▸ L.sha256_hex _) now

theorem records (h : σ.Tracks L past) {client : Client} {accepted : AcceptedState}
    {paths : List String} (hc : σ.client = some client)
    (hw : σ.worker = .stored accepted paths) :
    Delivery.Tracks L ((.record, σ) :: past) { σ with
      client := some { client with lastAccepted := some accepted }
      worker := .next paths } := by
  refine ⟨fun hn => (nomatch hn), fun _ _ _ hp => (nomatch hp), fun other hmem hn => ?_,
    fun other hmem digest hd => ?_, fun other hmem _ _ => ?_, fun _ hd => (nomatch hd),
    fun other hmem _ => ?_, fun _ hd => (nomatch hd)⟩
  · cases hmem
    rcases h.unqueued client hc hn with ⟨_, hp⟩ | ⟨-, hu⟩
    · rw [hw] at hp
      cases hp
    · rw [hw] at hu
      cases hu
  · cases hmem
    exact h.queued client hc digest hd
  · cases hmem
    exact .inr (h.unrecorded _ (by rw [hw]; rfl)).symm
  · cases hmem
    exact h.recording _ (by rw [hw]; rfl)

theorem clears (h : σ.Tracks L past) (hq : σ.Queues L) {client : Client}
    (hc : σ.client = some client) (hw : σ.worker = .next []) :
    Delivery.Tracks L ((.clear true, σ) :: past) { σ with
      client := some (if true = true ∧ σ.spool.pendingFiles = [] then
        { client with lastEnqueuedDigest := none } else client)
      worker := .idle } := by
  have hunrecorded : σ.worker.unrecorded L = none := by rw [hw]; rfl
  have hrecording : σ.worker.recording = none := by rw [hw]; rfl
  by_cases hempty : σ.spool.pendingFiles = []
  · rw [if_pos ⟨rfl, hempty⟩]
    have hpending : σ.spool.pending = [] := hq.ordered.pendingFiles_eq_nil.mp hempty
    refine ⟨fun hn => (nomatch hn), fun _ _ _ hp => (nomatch hp), fun _ _ _ => .inr ⟨hpending, rfl⟩,
      fun other hmem digest hd => ?_, fun other hmem _ _ => ?_, fun _ hd => (nomatch hd),
      fun other hmem _ => ?_, fun _ hd => (nomatch hd)⟩
    · cases hmem
      cases hd
    · cases hmem
      exact h.accepted client hc hpending hunrecorded
    · cases hmem
      exact h.stored client hc hrecording
  · rw [if_neg fun hand => hempty hand.2]
    have hpending : σ.spool.pending ≠ [] := fun hn => hempty (hq.ordered.pendingFiles_eq_nil.mpr hn)
    refine ⟨fun hn => (nomatch hn), fun _ _ _ hp => (nomatch hp), fun other hmem hn => ?_,
      fun other hmem digest hd => ?_, fun _ _ hn => absurd hn hpending, fun _ hd => (nomatch hd),
      fun other hmem _ => ?_, fun _ hd => (nomatch hd)⟩
    · cases hmem
      rcases h.unqueued client hc hn with ⟨_, hp⟩ | ⟨hn, -⟩
      · rw [hw] at hp
        cases hp
      · exact absurd hn hpending
    · cases hmem
      exact .inl ((h.queued client hc digest hd).resolve_right fun hn => hpending hn.1)
    · cases hmem
      exact h.stored client hc hrecording

theorem crashes (h : σ.Tracks L past) (hrecorded : DeliveryEvent.Recorded L σ .crash) :
    Delivery.Tracks L ((.crash, σ) :: past) σ.crash := by
  refine ⟨fun _ hempty => ?_, fun _ hc => (nomatch hc), fun _ hc => (nomatch hc),
    fun _ hc => (nomatch hc), fun _ hc => (nomatch hc), fun _ hd => (nomatch hd),
    fun _ hc => (nomatch hc), fun _ hd => (nomatch hd)⟩
  show Knows σ.storedDigest (σ.serverDigest L)
  cases hc : σ.client with
  | none => exact h.stopped hc hempty
  | some client =>
    cases hr : σ.worker.recording with
    | some digest =>
      have hu : digest ∈ σ.worker.unrecorded L := WorkerTask.unrecorded_of_recording hr
      exact (h.unrecorded digest hu) ▸ h.recording digest hr
    | none =>
      cases hu : σ.worker.unrecorded L with
      | some digest => exact (h.unrecorded digest hu) ▸ hrecorded hempty hr digest hu
      | none => exact (h.stored client hc hr).trans (h.accepted client hc hempty hu)

/-- **Every step keeps the memory of the client true.** -/
theorem moves (h : σ.Tracks L past) (hq : σ.Queues L) (hk : σ.Kept L) (hstaged : σ.Staged)
    (hL : L.Lossless) (hfault : e.Faultless) (hlater : e.Later L σ) (hrecorded : e.Recorded L σ)
    (hm : Delivery.Moves L settings σ e σ') : σ'.Tracks L ((e, σ) :: past) := by
  cases hm with
  | start hc =>
    obtain ⟨rfl, -⟩ := hfault
    exact h.start hc
  | inspected hc hw hf ht => exact h.inspected hq hc hw hf ht
  | passedOver hc hw hr =>
    obtain ⟨rfl, rfl⟩ := hfault
    exact (hq.not_passedOver hw hr).elim
  | inspectedAll hc hw => exact h.inspectedAll hq hw trivial
  | due | suppressed | tooLarge =>
    exact h.stays trivial rfl rfl rfl rfl (fun _ => rfl) (fun _ hp => hp) rfl rfl
  | notWritten hc hi hs hj hwritten =>
    rw [hfault.1] at hwritten
    cases hwritten
  | @enqueued client snapshot due spooling hc hi hs hj hwritten =>
    have hwrites : σ.Writes L := ⟨client, hc, by rw [hi]; exact hs⟩
    exact h.spools hq hk hstaged hL spooling.evictable hc hi hj (hlater hwrites)
  | @killedSpooling client snapshot due modified place evicted hc hi hs hj =>
    have hwrites : σ.Writes L := ⟨client, hc, by rw [hi]; exact hs⟩
    obtain ⟨hordered, hnewest, -, -⟩ := Queues.spooled settings place hq hk hL hi hj
      (hlater hwrites) (some evicted)
    have hpresent := List.ne_nil_of_mem (hordered.newest_eq_some.mp hnewest).1
    exact ⟨fun _ hempty => absurd hempty hpresent, fun _ hc => (nomatch hc),
      fun _ hc => (nomatch hc), fun _ hc => (nomatch hc), fun _ hc => (nomatch hc),
      fun _ hd => (nomatch hd), fun _ hc => (nomatch hc), fun _ hd => (nomatch hd)⟩
  | listed hc hw =>
    exact h.stays trivial rfl rfl rfl rfl (fun ⟨_, hp⟩ => by rw [hw] at hp; cases hp)
      (fun _ hp => (nomatch hp)) (by rw [hw]; rfl) (by rw [hw]; rfl)
  | notListed => cases hfault
  | read hw | refused hw =>
    exact h.stays trivial rfl rfl rfl rfl (fun ⟨_, hp⟩ => by rw [hw] at hp; cases hp)
      (fun _ hp => (nomatch hp)) (by rw [hw]; rfl) (by rw [hw]; rfl)
  | skipped hw hr =>
    obtain ⟨rfl, rfl⟩ := hfault
    exact (hq.not_skipped hr).elim
  | notRead hw hr =>
    obtain ⟨rfl, rfl⟩ := hfault
    have hgone := Spool.find_of_readPending_error hr
    refine h.stays trivial ?_ rfl rfl rfl (fun ⟨_, hp⟩ => by rw [hw] at hp; cases hp)
      (fun _ hp => (nomatch hp)) (by rw [hw]; rfl) (by rw [hw]; rfl)
    exact congrArg Prod.snd (Spool.readPending_of_gone hgone true .done)
  | accepted hw =>
    exact h.serves hq hw rfl rfl rfl (fun _ hp => (nomatch hp)) (fun _ hd => hd) rfl
  | lost hw =>
    refine h.serves hq hw rfl rfl rfl (fun _ hp => ?_) (fun digest hd => ?_) (by rw [hw]; rfl)
    · rw [hw] at hp
      cases hp
    · rw [hw] at hd
      cases hd
  | rejected hw =>
    cases hfault
    exact h.rejects hq hk hstaged hw (hrecorded _ (by rw [hw]; rfl))
  | removed hw =>
    cases hfault
    exact h.removes hq hk hstaged hw
  | stored hw =>
    cases hfault
    exact h.stores hstaged hw
  | recorded hc hw => exact h.records hc hw
  | cleared hc hw =>
    cases hfault
    exact h.clears hq hc hw
  | crash => exact h.crashes hrecorded

/-- **What is remembered is enough**, where the first answer still holds. -/
theorem suppresses_rightly (h : σ.Tracks L past) (hstaged : σ.Staged)
    (htimely : e.Timely L past σ) : e.SuppressesRightly L σ := by
  cases e with
  | enqueue spooling =>
    intro digest hdigest
    unfold Delivery.suppressed at hdigest
    split at hdigest
    · next client snapshot due hc hi =>
      obtain ⟨hsuppresses, hsome⟩ := Option.ite_none_right_eq_some.mp hdigest
      cases hsome
      obtain ⟨hdue, hrejected⟩ := htimely client hc snapshot (by rw [hi]; rfl)
      cases hq : client.lastEnqueuedDigest with
      | none =>
        unfold Client.suppresses at hsuppresses
        rw [hq] at hsuppresses
        cases due with
        | true => exact absurd hsuppresses (by simp)
        | false =>
          rcases h.unqueued client hc hq with ⟨paths, hw⟩ | ⟨hempty, hunrecorded⟩
          · rcases hstaged.apart with hidle | hn
            · rw [hi] at hidle
              cases hidle
            · exact absurd hw (hn paths)
          · right
            have haccepted := hdue hq hi
            refine ⟨by rw [Spool.pendingFiles, hempty]; rfl, ?_⟩
            rcases h.accepted client hc hempty hunrecorded with hn | hserver
            · rw [hn] at haccepted
              cases haccepted
            · rw [← hserver, haccepted]
      | some queued =>
        unfold Client.suppresses at hsuppresses
        rw [hq] at hsuppresses
        have hsame : queued = snapshot.contentDigest L := by
          simpa [beq_iff_eq] using hsuppresses
        subst hsame
        rcases h.queued client hc _ hq with hnewest | ⟨hempty, hserver⟩
        · exact .inl hnewest
        · right
          exact ⟨by rw [Spool.pendingFiles, hempty]; rfl,
            hserver.resolve_right (hrejected hq hempty)⟩
    · cases hdigest
  | _ => trivial

end Delivery.Tracks

/-! ## Every run -/

/-- **The client knows where it stands**: the parts of the invariant. -/
structure Delivery.Sound (L : Libraries) (past : Past Delivery DeliveryEvent) (σ : Delivery) :
    Prop where
  kept : σ.Kept L
  staged : σ.Staged
  queues : σ.Queues L
  tracks : σ.Tracks L past

/-- Files do as they are told, and what is collected can be spooled. -/
def DeliveryEvent.Orderly (L : Libraries) (σ : Delivery) (e : DeliveryEvent) : Prop :=
  e.Faultless ∧ e.Collected L σ

theorem DeliveryEvent.Collected.proper (h : e.Collected L σ) : e.Proper L σ := by
  cases e with
  | due snapshot now => exact ⟨h.1.roundTrips, h.2⟩
  | _ => trivial

theorem Delivery.Fresh.sound (h : σ.Fresh) : σ.Sound L [] := by
  obtain ⟨hspool, hstate, hclient, hinventory, hworker⟩ := h
  have hpending : σ.spool.pending = [] := by rw [hspool]
  refine ⟨?_, ⟨fun _ => ⟨hinventory, hworker⟩, .inl hinventory⟩, ⟨?_, ?_, ?_, ?_, ?_, ?_⟩,
    ⟨?_, ?_, ?_, ?_, ?_, ?_, ?_, ?_⟩⟩
  · refine Delivery.Stopped.kept ⟨⟨?_, ?_, ?_⟩, hclient, hinventory, hworker⟩
    · rw [hpending]
      exact List.nodup_nil
    · rw [hpending]
      exact fun _ hf => (nomatch hf)
    · rw [hpending]
      exact fun _ hf => (nomatch hf)
  · refine ⟨?_, ?_, ?_⟩ <;> rw [hpending]
    · exact fun _ hf => (nomatch hf)
    · exact List.nodup_nil
    · exact List.nodup_nil
  · rw [hpending]
    exact fun _ hf => (nomatch hf)
  · rw [hworker]
    exact .nil _
  · rw [hworker]
    exact fun hn => absurd rfl hn
  · rw [hworker]
    exact fun _ hp => (nomatch hp)
  · rw [hinventory]
    exact fun _ hs => (nomatch hs)
  · refine fun _ _ => .inl ?_
    rw [Delivery.storedDigest, hstate]
    rfl
  · rw [hclient]
    exact fun _ hc => (nomatch hc)
  · rw [hclient]
    exact fun _ hc => (nomatch hc)
  · rw [hclient]
    exact fun _ hc => (nomatch hc)
  · rw [hclient]
    exact fun _ hc => (nomatch hc)
  · rw [hworker]
    exact fun _ hd => (nomatch hd)
  · rw [hclient]
    exact fun _ hc => (nomatch hc)
  · rw [hworker]
    exact fun _ hd => (nomatch hd)

theorem Delivery.Sound.moves (h : σ.Sound L past) (hL : L.Lossless) (horderly : e.Orderly L σ)
    (hlater : e.Later L σ) (hrecorded : e.Recorded L σ)
    (hm : Delivery.Moves L settings σ e σ') : σ'.Sound L ((e, σ) :: past) where
  kept := h.kept.moves hL horderly.2.proper hm
  staged := h.staged.moves hm
  queues := h.queues.moves h.kept h.staged hL horderly.1 horderly.2 hlater hm
  tracks := h.tracks.moves h.queues h.kept h.staged hL horderly.1 hlater hrecorded hm

/-! ### Any interleaving -/

/-- The process is stopped only between the tasks. -/
def DeliveryEvent.Calm (σ : Delivery) : DeliveryEvent → Prop
  | .crash => σ.inventory = .idle ∧ σ.worker = .idle
  | .killedSpooling _ _ _ => False
  | _ => True

/-- **Suppression beside a running worker.** In every interleaving of the two
tasks, without file faults and crashes: where entries are written one after
the other, no quarantine empties the spool behind a client that takes another
state to be accepted, and nothing comes between the two halves of
`enqueue_if_needed` that makes the first answer void, a snapshot is suppressed
only where its state is there already. -/
theorem suppressed_in_any_order (hL : L.Lossless) (h : Delivered L settings past σ)
    (hcalm : Throughout (fun _ σ e => DeliveryEvent.Orderly L σ e ∧ DeliveryEvent.Calm σ e) past)
    (hcondition : Throughout (fun past σ e => DeliveryEvent.Later L σ e ∧
      DeliveryEvent.Recorded L σ e ∧ DeliveryEvent.Timely L past σ e) past) :
    Throughout (fun _ σ e => DeliveryEvent.SuppressesRightly L σ e) past := by
  have hsound : ∀ {past σ}, Delivered L settings past σ →
      Throughout (fun past σ e => (DeliveryEvent.Orderly L σ e ∧ DeliveryEvent.Calm σ e) ∧
        DeliveryEvent.Later L σ e ∧ DeliveryEvent.Recorded L σ e ∧
          DeliveryEvent.Timely L past σ e) past → σ.Sound L past := fun h hC =>
    h.invariant (I := Delivery.Sound L) hC (fun _ hσ => hσ.sound)
      fun _ _ _ _ hI hC hstep =>
        hI.moves hL hC.1.1 hC.2.1 hC.2.2.1 (Delivery.step_moves hstep)
  exact h.throughout (hcalm.and hcondition) (fun _ _ => hsound)
    fun _ _ _ _ hI hC _ => hI.tracks.suppresses_rightly hI.staged hC.2.2.2

/-! ### One task after the other -/

/-- A task is begun only when the other is done. -/
def DeliveryEvent.InTurn (σ : Delivery) : DeliveryEvent → Prop
  | .due _ _ => σ.worker = .idle
  | .list _ => σ.inventory = .idle
  | _ => True

/-- **Between the tasks everything is settled**: with an empty spool nothing is
queued, and a pass meets all entries it has enumerated. -/
structure Delivery.TakesTurns (L : Libraries) (σ : Delivery) : Prop where
  apart : σ.inventory = .idle ∨ σ.worker = .idle
  /-- Until the snapshot is spooled, the state accepted last is the one it was
  compared with. -/
  decided : ∀ client ∈ σ.client, ∀ snapshot, σ.inventory = .deciding snapshot false →
    client.acceptedDigest = some (snapshot.contentDigest L)
  settled : ∀ client ∈ σ.client, σ.worker = .idle → σ.spool.pending = [] →
    client.lastEnqueuedDigest = none
  distinct : σ.worker.names.Nodup
  present : ∀ name ∈ σ.worker.names, ∃ f ∈ σ.spool.pending, f.name = name

/-- A snapshot that is not due has the digest accepted last. -/
theorem digest_of_not_due {lastAccepted : Option AcceptedState} {digest : String} {now : Nat}
    (h : dueForSubmission settings lastAccepted digest now = false) :
    lastAccepted.map AcceptedState.digest = some digest := by
  unfold dueForSubmission at h
  cases lastAccepted with
  | none => cases h
  | some last =>
    simp only [Bool.or_eq_false_iff, bne_eq_false_iff_eq] at h
    exact congrArg some h.1.1

namespace Delivery.TakesTurns

/-- The worker has an entry less at hand, or none. -/
theorem leaves (h : σ.TakesTurns L) (hq : σ.Queues L) (t : InventorySnapshot) (paths : List String)
    (w : WorkerTask) (hw : σ.worker.names = entryName t.snapshotId :: paths)
    (hbusy : σ.worker ≠ .idle) (hnames : w.names = paths) (hworker : w ≠ .idle) {s : Spool}
    (hspool : s.pending = (σ.spool.without (entryNames t.snapshotId)).pending) :
    Delivery.TakesTurns L { σ with spool := s, worker := w } := by
  have hdistinct := h.distinct
  rw [hw] at hdistinct
  obtain ⟨hnew, hdistinct⟩ := List.nodup_cons.mp hdistinct
  refine ⟨.inl (h.apart.resolve_right hbusy), h.decided, fun _ _ hidle => absurd hidle hworker,
    hnames ▸ hdistinct, fun name hname => ?_⟩
  have hin : name ∈ paths := hnames ▸ hname
  obtain ⟨f, hf, rfl⟩ := h.present name (by rw [hw]; exact List.mem_cons_of_mem _ hin)
  refine ⟨f, ?_, rfl⟩
  rw [hspool]
  refine Spool.mem_without.mpr ⟨hf, fun hid => ?_⟩
  rw [hq.mem_entryNames_iff hf] at hid
  exact hnew (hid ▸ hin)

/-- The worker goes on, with the spool and the client as they were. -/
theorem goesOn (h : σ.TakesTurns L) (hbusy : σ.inventory = .idle)
    (hinventory : σ'.inventory = σ.inventory) (hspool : σ'.spool = σ.spool)
    (hclient : σ'.client = σ.client) (hnames : σ'.worker.names = σ.worker.names)
    (hworker : σ'.worker = .idle → ∀ client ∈ σ.client, client.lastEnqueuedDigest = none) :
    σ'.TakesTurns L := by
  refine ⟨.inl (hinventory.trans hbusy), ?_, fun client hc hidle _ => ?_, hnames ▸ h.distinct, ?_⟩
  · rw [hclient, hinventory]
    exact h.decided
  · exact hworker hidle client (hclient ▸ hc)
  · rw [hnames, hspool]
    exact h.present

/-- **Every step keeps the turns.** -/
theorem moves (h : σ.TakesTurns L) (hsound : σ.Sound L past) (hL : L.Lossless)
    (hfault : e.Faultless) (hlater : e.Later L σ) (hturn : e.InTurn σ)
    (hm : Delivery.Moves L settings σ e σ') : σ'.TakesTurns L := by
  have hq := hsound.queues
  have hidle : ∀ {w : WorkerTask}, σ.worker = w → w ≠ .idle → σ.inventory = .idle :=
    fun hw hne => h.apart.resolve_right (hw ▸ hne)
  cases hm with
  | start hc =>
    refine ⟨.inl (hsound.staged.stopped hc).1, fun _ _ snapshot hi => ?_,
      fun _ _ hp => (by cases hp), List.nodup_nil, fun _ hn => (by cases hn)⟩
    cases (hsound.staged.stopped hc).1.symm.trans hi
  | inspected hc hw hf ht =>
    have hinventory := hidle hw (fun h => by cases h)
    refine ⟨.inr rfl, fun _ _ snapshot hi => ?_, fun _ _ _ hempty => ?_, List.nodup_nil,
      fun _ hn => (by cases hn)⟩
    · cases hinventory.symm.trans hi
    · exact absurd hempty (List.ne_nil_of_mem (hq.ordered.find_eq_some.mp hf).1)
  | passedOver hc hw hr =>
    obtain ⟨rfl, rfl⟩ := hfault
    exact (hq.not_passedOver hw hr).elim
  | inspectedAll hc hw =>
    exact h.goesOn (hidle hw (fun h => by cases h)) rfl rfl rfl (by rw [hw]; rfl)
      fun _ client hclient => hsound.tracks.inspecting client hclient _ hw
  | @due client snapshot now hc hi hw =>
    refine ⟨.inr hturn, fun other hmem t hdue => ?_, h.settled, h.distinct, h.present⟩
    cases hc.symm.trans hmem
    obtain ⟨rfl, hnot⟩ := InventoryTask.deciding.inj hdue
    exact digest_of_not_due hnot
  | suppressed | tooLarge =>
    exact ⟨.inl rfl, fun _ _ _ hi => (by cases hi), h.settled, h.distinct, h.present⟩
  | notWritten hc hi hs hj hwritten =>
    rw [hfault.1] at hwritten
    cases hwritten
  | @enqueued client snapshot due spooling hc hi hs hj hwritten =>
    have hwrites : σ.Writes L := ⟨client, hc, by rw [hi]; exact hs⟩
    have hworker : σ.worker = .idle := h.apart.resolve_left fun hn => by rw [hi] at hn; cases hn
    obtain ⟨hordered, hnewest, -, -⟩ := Queues.spooled settings spooling.place hq hsound.kept hL hi
      hj (hlater hwrites) spooling.evictable
    refine ⟨.inl rfl, fun _ _ _ hi => (by cases hi), fun _ _ _ hempty => ?_, h.distinct, ?_⟩
    · exact absurd hempty (List.ne_nil_of_mem (hordered.newest_eq_some.mp hnewest).1)
    · show ∀ name ∈ σ.worker.names, _
      rw [hworker]
      exact fun _ hn => by cases hn
  | killedSpooling | crash =>
    exact ⟨.inl rfl, fun _ hc => (by cases hc), fun _ hc => (by cases hc), List.nodup_nil,
      fun _ hn => (by cases hn)⟩
  | listed hc hw =>
    refine ⟨.inl hturn, h.decided, fun _ _ hp => (by cases hp), ?_, fun name hn => ?_⟩
    · show σ.spool.pendingPaths.Nodup
      rw [Spool.pendingPaths, hq.ordered.pendingFiles]
      exact ((List.perm_insertionSort _ _).map _).nodup_iff.mpr hq.ordered.names
    · obtain ⟨f, hf, hname⟩ := List.mem_map.mp hn
      exact ⟨f, (Spool.mem_pendingFiles.mp hf).1, hname⟩
  | notListed => cases hfault
  | @read path paths moved f snapshot hw hf ht =>
    obtain ⟨hmem, hname⟩ := hq.ordered.find_eq_some.mp hf
    obtain ⟨t, ht', hft⟩ := hq.valid f hmem
    cases ht.symm.trans ht'
    refine h.goesOn (hidle hw (fun h => by cases h)) rfl rfl rfl ?_ fun hn => by cases hn
    rw [hw]
    show entryName _ :: paths = path :: paths
    rw [← hft, hname]
  | skipped hw hr =>
    obtain ⟨rfl, rfl⟩ := hfault
    exact (hq.not_skipped hr).elim
  | @notRead path paths readable moved hw hr =>
    obtain ⟨rfl, rfl⟩ := hfault
    obtain ⟨f, hf, hname⟩ := h.present path (by rw [hw]; exact List.mem_cons_self)
    have hgone := Spool.find_of_readPending_error hr
    rw [hq.ordered.find_eq_some.mpr ⟨hf, hname⟩] at hgone
    cases hgone
  | accepted hw | stored hw =>
    exact h.goesOn (hidle hw (fun h => by cases h)) rfl rfl rfl (by rw [hw]; rfl) fun hn => by cases hn
  | lost hw => exact ⟨h.apart, h.decided, h.settled, h.distinct, h.present⟩
  | @rejected snapshot paths why moved hw =>
    cases hfault
    exact h.leaves hq snapshot paths (.next paths) (by rw [hw]; rfl)
      (by rw [hw]; exact fun h => by cases h) rfl (fun h => by cases h) rfl
  | @removed snapshot paths result hw =>
    cases hfault
    exact h.leaves hq snapshot paths (.removed _ paths) (by rw [hw]; rfl)
      (by rw [hw]; exact fun h => by cases h) rfl (fun h => by cases h) rfl
  | refused hw =>
    have hpresent := hq.present (by rw [hw]; exact Option.some_ne_none _)
    exact ⟨.inr rfl, h.decided, fun _ _ _ hempty => absurd hempty hpresent, List.nodup_nil,
      fun _ hn => (by cases hn)⟩
  | recorded hc hw =>
    have hinventory := hidle hw (fun h => by cases h)
    refine ⟨.inl hinventory, fun _ _ snapshot hi => ?_, fun _ _ hp => (by cases hp), ?_, ?_⟩
    · cases hinventory.symm.trans hi
    · have hdistinct := h.distinct
      rwa [hw] at hdistinct
    · have hpresent := h.present
      rwa [hw] at hpresent
  | @cleared client listed hc hw =>
    cases hfault
    have hinventory := hidle hw (fun h => by cases h)
    refine ⟨.inr rfl, fun _ _ snapshot hi => ?_, fun other hmem _ hempty => ?_, List.nodup_nil,
      fun _ hn => (by cases hn)⟩
    · cases hinventory.symm.trans hi
    · rw [if_pos ⟨rfl, hq.ordered.pendingFiles_eq_nil.mpr hempty⟩] at hmem
      cases hmem
      rfl

end Delivery.TakesTurns

instance {s : InventorySnapshot} : Decidable (s.Spoolable L) :=
  have : Decidable (L.RoundTrips s) := by
    unfold Libraries.RoundTrips
    infer_instance
  decidable_of_iff (s.validate L = .ok () ∧ L.RoundTrips s ∧
      (L.compress s.toCanonicalJson).length ≤ maxSnapshotBytes)
    ⟨fun h => ⟨h.1, h.2.1, h.2.2⟩, fun h => ⟨h.valid, h.roundTrips, h.compressed⟩⟩

instance : Decidable (e.Orderly L σ) := by
  unfold DeliveryEvent.Orderly DeliveryEvent.Collected
  have : Decidable (match e with
      | .due snapshot _ => snapshot.Spoolable L ∧ σ.NewId snapshot.snapshotId
      | _ => True) := by rcases e with ⟨⟩ <;> infer_instance
  infer_instance

instance : Decidable (e.Calm σ) := by
  unfold DeliveryEvent.Calm
  rcases e with ⟨⟩ <;> infer_instance

instance : Decidable (e.InTurn σ) := by
  unfold DeliveryEvent.InTurn
  rcases e with ⟨⟩ <;> infer_instance

instance : Decidable (e.Recorded L σ) := by
  unfold DeliveryEvent.Recorded
  rcases e with ⟨⟩
  case answer reply => rcases reply with ⟨⟩ <;> infer_instance
  all_goals infer_instance

instance : Decidable (e.Timely L past σ) := by
  unfold DeliveryEvent.Timely
  rcases e with ⟨⟩ <;> infer_instance

instance {digest : String} : Decidable (σ.UpToDate L digest) := by
  unfold Delivery.UpToDate
  infer_instance

instance : Decidable (e.SuppressesRightly L σ) := by
  unfold DeliveryEvent.SuppressesRightly
  rcases e with ⟨⟩ <;> infer_instance

namespace Sample

theorem fresh_fresh : fresh.Fresh := ⟨rfl, rfl, rfl, rfl, rfl⟩

/-- The state of the first snapshot once more. -/
def again : InventorySnapshot := snapshot "snap-5" "host-1"

def returning : Libraries := carrying [(first, digestA), (second, digestB), (again, digestA)]

def opens : List DeliveryEvent := [.start true true true, .inspect true .done]

/-- A pass over one entry. -/
def drains (time : Nat) : List DeliveryEvent :=
  [.list true, .read true .done] ++ accepts time ++ [.clear true]

/-- The host returns to its first state while the second is with the server:
that state is not due yet, and then nothing is queued any more. -/
def overtaken : Past Delivery DeliveryEvent × Delivery :=
  deliver returning dailyRefresh fresh (opens ++ spools first 100 ++ drains 101
    ++ spools second 200 ++ [.list true, .read true .done, .due again 201] ++ accepts 202
    ++ [.clear true, .enqueue ⟨203, 0, .done, none⟩])

/-- The same state is collected again while the first is with the server. -/
def awaited : Past Delivery DeliveryEvent × Delivery :=
  deliver returning dailyRefresh fresh (opens ++ spools first 100
    ++ [.list true, .read true .done] ++ spools again 150 ++ accepts 160 ++ [.clear true])

end Sample

open Sample in
/-- **A return to an earlier state is dropped** between the two locks. -/
theorem return_suppressed_in_between :
    Delivered returning dailyRefresh overtaken.1 overtaken.2 ∧
      Throughout (fun _ σ e => DeliveryEvent.Orderly returning σ e ∧ DeliveryEvent.Calm σ e)
        overtaken.1 ∧
      ¬ Throughout (fun _ σ e => DeliveryEvent.SuppressesRightly returning σ e) overtaken.1 ∧
      overtaken.2.spool.pending = [] ∧ overtaken.2.server = [second, first] :=
  ⟨deliver_history fresh_fresh _ _ _, by decide +kernel⟩

open Sample in
theorem awaited_suppressed :
    awaited.1.length = 13 ∧
      Throughout (fun _ σ e => DeliveryEvent.SuppressesRightly returning σ e) awaited.1 := by
  have hrun : awaited.1.length = 13 ∧
      Throughout (fun _ σ e => DeliveryEvent.Orderly returning σ e ∧ DeliveryEvent.Calm σ e)
        awaited.1 ∧
      Throughout (fun past σ e => DeliveryEvent.Later returning σ e ∧
        DeliveryEvent.Recorded returning σ e ∧ DeliveryEvent.Timely returning past σ e)
        awaited.1 := by
    decide +kernel
  obtain ⟨hlength, hcalm, hcondition⟩ := hrun
  exact ⟨hlength, suppressed_in_any_order (carrying_lossless _)
    (deliver_history fresh_fresh _ dailyRefresh _) hcalm hcondition⟩

end Lariska
