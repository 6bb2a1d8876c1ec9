import Lariska.SupervisorRuns
import Lariska.SupervisorInvariants
import Lariska.JsonSize

/-!
# What the ledger's writers write and its reader accepts

The reader of `update-state.json` bounds the file in bytes; its writers bound
the history by the number of records and a reason by its characters. Whether
a document that was written can be read again is therefore a question about
sizes: `UpdateLedger.length_json` computes the size of a document from its
parts, and the calls of this module are the writers, in any order, under any
validated configurations, each with a script of its own.

Everything else the reader checks, the writers keep (`UpdateLedger.Sound`).
So the document on disk is accepted exactly when every write so far had room
for what it added, and the first write without room is the last one: each
writer reads the ledger first.
-/

namespace Lariska

open Prog (lift need ensure attempt)

/-! ## Sizes -/

/-- The bytes of a transaction, from its parts. -/
def PendingUpdate.size (p : PendingUpdate) : Nat :=
  Json.escapedSize p.nonce + Json.escapedSize p.version + (Json.nat p.sequence).length
    + (Json.nat p.startedAt).length + (Json.nat p.deadline).length + 63

/-- The bytes of a record, from its parts. -/
def HistoryEntry.size (r : HistoryEntry) : Nat :=
  Json.escapedSize r.nonce + Json.escapedSize r.version + (Json.nat r.sequence).length
    + (Json.nat r.recordedAt).length + Json.escapedSize r.outcome + Json.escapedSize r.reason + 68

/-- The bytes of a ledger with this floor, this transaction and this history:
what each part takes, the word `null` where there is no transaction, and a
comma between two records. -/
def ledgerSize (floorVersion : String) (floorSequence : Nat) (pending : Option PendingUpdate)
    (history : List HistoryEntry) : Nat :=
  Json.escapedSize floorVersion + (Json.nat floorSequence).length
    + (match pending with
      | none => 4
      | some p => p.size)
    + ((history.map HistoryEntry.size).sum + (history.length - 1)) + 62

theorem PendingUpdate.length_json (p : PendingUpdate) : p.json.length = p.size := by
  have h₁ : Json.escapedSize "nonce" = 5 := by decide
  have h₂ : Json.escapedSize "version" = 7 := by decide
  have h₃ : Json.escapedSize "sequence" = 8 := by decide
  have h₄ : Json.escapedSize "started_at" = 10 := by decide
  have h₅ : Json.escapedSize "deadline" = 8 := by decide
  unfold PendingUpdate.json PendingUpdate.size
  rw [Json.length_object]
  simp only [List.map_cons, List.map_nil, List.sum_cons, List.sum_nil, List.length_cons,
    List.length_nil, Json.length_str, h₁, h₂, h₃, h₄, h₅]
  omega

theorem HistoryEntry.length_json (r : HistoryEntry) : r.json.length = r.size := by
  have h₁ : Json.escapedSize "nonce" = 5 := by decide
  have h₂ : Json.escapedSize "version" = 7 := by decide
  have h₃ : Json.escapedSize "sequence" = 8 := by decide
  have h₄ : Json.escapedSize "at" = 2 := by decide
  have h₅ : Json.escapedSize "outcome" = 7 := by decide
  have h₆ : Json.escapedSize "reason" = 6 := by decide
  unfold HistoryEntry.json HistoryEntry.size
  rw [Json.length_object]
  simp only [List.map_cons, List.map_nil, List.sum_cons, List.sum_nil, List.length_cons,
    List.length_nil, Json.length_str, h₁, h₂, h₃, h₄, h₅, h₆]
  omega

/-- **The size of the document is the size of its parts.** -/
theorem UpdateLedger.length_json (l : UpdateLedger) :
    l.json.length = ledgerSize l.floorVersion l.floorSequence l.pending l.history := by
  have h₁ : Json.escapedSize "floor_version" = 13 := by decide
  have h₂ : Json.escapedSize "floor_sequence" = 14 := by decide
  have h₃ : Json.escapedSize "pending" = 7 := by decide
  have h₄ : Json.escapedSize "history" = 7 := by decide
  have hpending : (Json.opt PendingUpdate.json l.pending).length
      = match l.pending with
        | none => 4
        | some p => p.size := by
    cases l.pending with
    | none => decide
    | some p => exact p.length_json
  have hhistory : (Json.array (l.history.map HistoryEntry.json)).length
      = (l.history.map HistoryEntry.size).sum + (l.history.length - 1) + 2 := by
    rw [Json.length_array, List.map_map, List.length_map]
    congr 3
    refine List.map_congr_left fun r _ => ?_
    exact r.length_json
  unfold UpdateLedger.json ledgerSize
  rw [Json.length_object]
  simp only [List.map_cons, List.map_nil, List.sum_cons, List.sum_nil, List.length_cons,
    List.length_nil, Json.length_str, hpending, hhistory, h₁, h₂, h₃, h₄]
  omega

/-! ## What the writers keep -/

variable (P : Platform)

/-- The ledger passes every check of `read_ledger` but the one of its size. -/
structure UpdateLedger.Sound (l : UpdateLedger) : Prop where
  floor : ∃ v, parseVersion P l.floorVersion = .ok v
  history : l.history.length ≤ 100
  nonces : ∀ r ∈ l.history, validNonce r.nonce = true
  pending : ∀ p, l.pending = some p → validNonce p.nonce = true

variable {P}

/-- A sound ledger is accepted when its size is. -/
theorem UpdateLedger.Sound.check_eq_ok_iff {l : UpdateLedger} (h : l.Sound P) :
    checkLedger P l = .ok () ↔ l.json.length ≤ maxLedgerBytes := by
  obtain ⟨v, hv⟩ := h.floor
  have hnonces : ∀ r ∈ l.history, r.nonce = "" ∨ validNonce r.nonce = true :=
    fun r hr => .inr (h.nonces r hr)
  constructor
  · intro hc
    obtain ⟨_, hsize, -⟩ := Except.bind_eq_ok.mp hc
    exact require_eq_ok.mp hsize
  · intro hsize
    refine Except.bind_eq_ok.mpr ⟨(), require_eq_ok.mpr hsize, ?_⟩
    refine Except.bind_eq_ok.mpr ⟨(), by rw [hv]; rfl, ?_⟩
    exact Except.bind_eq_ok.mpr ⟨(), require_eq_ok.mpr h.history, require_eq_ok.mpr hnonces⟩

theorem UpdateLedger.Sound.awaiting {l : UpdateLedger} (h : l.Sound P) {p : PendingUpdate}
    (hp : validNonce p.nonce = true) : (l.awaiting p).Sound P where
  floor := h.floor
  history := h.history
  nonces := h.nonces
  pending := by
    rintro _ ⟨⟩
    exact hp

theorem length_appendHistory_le (limit : Nat) (history : List HistoryEntry)
    (record : HistoryEntry) : (appendHistory limit history record).length ≤ limit := by
  unfold appendHistory
  rw [List.length_drop]
  omega

/-- The records kept, and the new one. -/
theorem appendHistory_eq {limit : Nat} (hlimit : 1 ≤ limit) (history : List HistoryEntry)
    (record : HistoryEntry) :
    appendHistory limit history record
      = history.drop (history.length + 1 - limit) ++ [record] := by
  unfold appendHistory
  rw [List.length_append, List.length_singleton, List.drop_append_of_le_length]
  omega

theorem UpdateLedger.Sound.close {l : UpdateLedger} (h : l.Sound P) {limit : Nat}
    (hlimit : limit ≤ 100) {record : HistoryEntry} (hr : validNonce record.nonce = true) :
    (l.close limit record).Sound P where
  floor := h.floor
  history := (length_appendHistory_le limit l.history record).trans hlimit
  nonces := by
    intro r hmem
    have hmem' : r ∈ l.history ++ [record] := List.mem_of_mem_drop hmem
    rw [List.mem_append, List.mem_singleton] at hmem'
    obtain hmem' | rfl := hmem'
    · exact h.nonces r hmem'
    · exact hr
  pending := fun _ hp => nomatch hp

/-- Raising the floor keeps a ledger sound: the new floor has been parsed. -/
theorem UpdateLedger.Sound.raise {l raised : UpdateLedger} (h : l.Sound P) {version : String}
    {sequence : Nat} (hraise : raiseFloor P l version sequence = .ok raised) :
    raised.Sound P := by
  obtain ⟨candidate, hcandidate, hraise⟩ := Except.bind_eq_ok.mp hraise
  obtain ⟨floor, hfloor, hraise⟩ := Except.bind_eq_ok.mp hraise
  cases hraise
  refine ⟨?_, h.history, h.nonces, h.pending⟩
  show ∃ v, parseVersion P (if candidate > floor then version else l.floorVersion) = .ok v
  split
  · exact ⟨candidate, hcandidate⟩
  · exact ⟨floor, hfloor⟩

theorem UpdateLedger.initial_sound {v : P.Version}
    (hv : parseVersion P P.cargoPkgVersion = .ok v) : (UpdateLedger.initial P).Sound P where
  floor := ⟨v, hv⟩
  history := by
    show 0 ≤ 100
    omega
  nonces := fun _ hr => nomatch hr
  pending := fun _ hp => nomatch hp

/-! ## Reading a document back -/

section Done

variable {w : World} {t : Turn} {script : List Turn}

/-- A ledger that passes the checks is read. -/
theorem readLedger_done (hs : w.script = t :: script) (hf : t.fate = .done)
    (hok : w.host.root.ledger = none ∨ checkLedger P (w.host.ledger P) = .ok ()) :
    readLedger P w = (.ok (w.host.ledger P), w.after t script) := by
  refine (andThen_ok (inspect_done hs hf)).trans ?_
  rw [w.after_root t script]
  cases hl : w.host.root.ledger with
  | none =>
    rw [Host.ledger, hl]
    rfl
  | some l =>
    have hc : checkLedger P l = .ok () := by
      rw [Host.ledger, hl] at hok
      exact hok.resolve_left (by simp)
    rw [Host.ledger, hl]
    dsimp only
    rw [hc]
    rfl

end Done

variable (P)

/-- **The ledger on disk is accepted by `read_ledger` and reads as itself**,
whenever the file can be read at all. -/
def Host.ReadsBack (h : Host) : Prop :=
  ∀ (w : World) (t : Turn) (script : List Turn), w.host.root = h.root →
    w.script = t :: script → t.fate = .done →
      ∃ w', readLedger P w = (.ok (h.ledger P), w')

variable {P}

theorem Host.readsBack_iff {h : Host} :
    h.ReadsBack P ↔ h.root.ledger = none ∨ checkLedger P (h.ledger P) = .ok () := by
  constructor
  · intro hread
    obtain ⟨w', hr⟩ := hread ⟨h, Journal.empty, [⟨[], 0, .done, "", 0⟩], []⟩ _ _ rfl rfl rfl
    rw [readLedger, andThen_ok (inspect_done rfl rfl), World.after_root] at hr
    dsimp only at hr
    cases hl : h.root.ledger with
    | none => exact .inl rfl
    | some l =>
      refine .inr ?_
      rw [Host.ledger, hl, Option.getD_some]
      rw [hl] at hr
      cases hc : checkLedger P l with
      | ok _ => rfl
      | error e =>
        dsimp only at hr
        rw [hc] at hr
        cases hr
  · intro hok w t script hroot hs hf
    have hledger : w.host.ledger P = h.ledger P := by rw [Host.ledger, hroot, Host.ledger]
    refine ⟨w.after t script, ?_⟩
    rw [← hledger]
    refine readLedger_done hs hf ?_
    rw [hledger, hroot]
    exact hok

theorem Host.ledger_of_root {h : Host} {l : UpdateLedger} (hl : h.root.ledger = some l) :
    h.ledger P = l := by
  rw [Host.ledger, hl, Option.getD_some]

/-- What `read_ledger` has seen when it returns. -/
theorem readLedger_checked {w : World} :
    Observes (readLedger P) w (fun l => l = w.host.ledger P ∧
      (w.host.root.ledger = none ∨ checkLedger P l = .ok ())) := by
  refine observes_inspect.bind fun h w' _ hh => ?_
  have hl : h.ledger P = w.host.ledger P := by rw [Host.ledger, hh.1, Host.ledger]
  cases hr : h.root.ledger with
  | none =>
    refine observes_pure ⟨?_, .inl (hh.1 ▸ hr)⟩
    rw [← hl, Host.ledger, hr, Option.getD_none]
  | some ledger =>
    refine observes_lift.bind fun _ _ _ hc => observes_pure ⟨?_, .inr hc⟩
    rw [← hl, Host.ledger, hr, Option.getD_some]

/-! ## The calls -/

/-- A call of one of the ledger's writers. -/
inductive LedgerCall where
  | commit (config : Config) (manifest : ReleaseManifest) (nonce : String)
  | arm (config : Config) (nonce : String)
  | finish (config : Config) (nonce : String) (healthy : Bool) (reason : String)

def LedgerCall.config : LedgerCall → Config
  | .commit config _ _ => config
  | .arm config _ => config
  | .finish config _ _ _ => config

variable (P)

def LedgerCall.program : LedgerCall → Act Unit
  | .commit config manifest nonce => commitPending P config manifest nonce
  | .arm config nonce => do
    let _ ← armHealth P config nonce
    pure ()
  | .finish config nonce healthy reason => finishUpdate P config nonce healthy reason

/-- A sequence of calls on a host without a ledger, each with the script of
its turns. -/
structure LedgerRun where
  shared : Shared
  installed : ReleaseManifest
  calls : List (LedgerCall × List Turn)

/-- Makes one call after the other. A call that fails or is killed is
followed by the next one all the same. -/
def makeCalls : List (LedgerCall × List Turn) → Past Host Event → Host →
    Past Host Event × Host
  | [], past, h => (past, h)
  | (call, script) :: rest, past, h =>
    let w := (call.program P ⟨h, Journal.empty, script, past⟩).2
    makeCalls rest w.trace w.host

namespace LedgerRun

variable (r : LedgerRun)

def start : Host := ⟨⟨none, none, []⟩, r.shared, r.installed⟩

/-- What happened, newest first, each event with the host it found. -/
def past : Past Host Event := (makeCalls P r.calls [] r.start).1

/-- The host at the end. -/
def host : Host := (makeCalls P r.calls [] r.start).2

end LedgerRun

/-! ## Room for what is written -/

/-- The ledger with the floor a record raises. -/
def UpdateLedger.raisedBy (l : UpdateLedger) (record : HistoryEntry) : UpdateLedger :=
  if record.outcome = "healthy" then
    match raiseFloor P l record.version record.sequence with
    | .ok raised => raised
    | .error _ => l
  else l

/-- **The write has room for what it adds.** For a transaction it is the
ledger found with that transaction; for a record it is the floor it raises,
the records the history limit keeps, and the record, whose reason counts as it
is escaped. -/
def Event.HasRoom (h : Host) (e : Event) : Prop :=
  match e with
  | .wroteLedger (.commit _ pending) _ =>
    ledgerSize (h.ledger P).floorVersion (h.ledger P).floorSequence (some pending)
      (h.ledger P).history ≤ maxLedgerBytes
  | .wroteLedger .arm armed =>
    ledgerSize (h.ledger P).floorVersion (h.ledger P).floorSequence armed.pending
      (h.ledger P).history ≤ maxLedgerBytes
  | .wroteLedger (.record config record) _ =>
    ledgerSize ((h.ledger P).raisedBy P record).floorVersion
      ((h.ledger P).raisedBy P record).floorSequence none
      ((h.ledger P).history.drop
        ((h.ledger P).history.length + 1 - config.updates.historyLimit) ++ [record])
      ≤ maxLedgerBytes
  | _ => True

variable {P}

/-- **What the calls keep**: the ledger is sound, and its document is within
the limit exactly when every write had room. -/
structure LedgerKept (P : Platform) (w : World) : Prop where
  sound : (w.host.ledger P).Sound P
  room : Throughout (fun _ h e => e.HasRoom P h) w.trace ↔
    w.host.root.ledger = none ∨ (w.host.ledger P).json.length ≤ maxLedgerBytes

/-- What can be read had room. -/
theorem LedgerKept.readsBack_iff {w : World} (h : LedgerKept P w) :
    w.host.ReadsBack P ↔ Throughout (fun _ h e => e.HasRoom P h) w.trace := by
  rw [Host.readsBack_iff, h.room, h.sound.check_eq_ok_iff]

theorem Event.root_ledger_apply (e : Event) (h : Host) :
    (e.apply h).root.ledger = match e with
      | .wroteLedger _ l => some l
      | _ => h.root.ledger := by
  cases e with
  | installing call => cases hc : call.effective <;> simp [Event.apply, hc]
  | _ => rfl

theorem documental_ledgerKept : Documental (LedgerKept P) where
  turns := fun _ h => ⟨h.sound, h.room⟩
  events := by
    intro w e he h
    have hledger : (e.apply w.host).ledger P = w.host.ledger P := Event.ledger_kept he P
    have hroot : (e.apply w.host).root.ledger = w.host.root.ledger := by
      rw [Event.root_ledger_apply]
      cases e <;> first | rfl | cases he
    have hroom : e.HasRoom P w.host := by
      cases e with
      | wroteLedger why l => cases he
      | _ => trivial
    refine ⟨?_, ?_⟩
    · rw [World.happen_host, hledger]
      exact h.sound
    · rw [World.happen_trace, World.happen_host, hledger, hroot, throughout_cons, ← h.room]
      exact and_iff_right hroom

/-- A write of a sound ledger, after the ledger on disk has been accepted. -/
theorem LedgerKept.write {w : World} (h : LedgerKept P w)
    (hread : w.host.root.ledger = none ∨ checkLedger P (w.host.ledger P) = .ok ())
    {why : LedgerWrite} {l : UpdateLedger} (hl : l.Sound P)
    (hroom : (Event.wroteLedger why l).HasRoom P w.host ↔ l.json.length ≤ maxLedgerBytes) :
    LedgerKept P (w.happen (.wroteLedger why l)) where
  sound := hl
  room := by
    rw [h.sound.check_eq_ok_iff, ← h.room] at hread
    rw [World.happen_trace, throughout_cons, hroom]
    refine ⟨fun hall => .inr hall.1, fun hsize => ⟨hsize.resolve_left ?_, hread⟩⟩
    exact Option.some_ne_none l

section Calls

variable {config : Config} {nonce : String}

theorem UpdateConfig.historyLimit_le (h : config.updates.validate P = .ok ()) :
    config.updates.historyLimit ≤ 100 := by
  obtain ⟨_, -, h⟩ := Except.bind_eq_ok.mp h
  obtain ⟨_, -, h⟩ := Except.bind_eq_ok.mp h
  obtain ⟨_, hl, -⟩ := Except.bind_eq_ok.mp h
  exact (require_eq_ok.mp hl).2

theorem commitPending_keeps (manifest : ReleaseManifest) :
    (commitPending P config manifest nonce).Keeps (LedgerKept P) := by
  intro w h
  have hI : Documental (LedgerKept P) := documental_ledgerKept
  refine observes_lift.then_keeping Prog.keeps_lift h (fun _ w₁ _ hnonce h₁ => ?_)
    (fun _ _ _ h => h)
  refine readLedger_checked.then_keeping (hI.readLedger P) h₁ (fun l w₂ hc₂ hl h₂ => ?_)
    (fun _ _ _ h => h)
  refine observes_refuse.then_keeping Prog.keeps_ensure h₂ (fun _ w₃ hc₃ _ h₃ => ?_)
    (fun _ _ _ h => h)
  refine observes_unixNow.then_keeping hI.unixNow h₃ (fun now w₄ hc₄ _ h₄ => ?_)
    (fun _ _ _ h => h)
  refine observes_need.then_keeping Prog.keeps_need h₄ (fun deadline w₅ hc₅ _ h₅ => ?_)
    (fun _ _ _ h => h)
  refine observes_step.then_keeping hI.step h₅ (fun _ w₆ hc₆ _ h₆ => ?_) (fun _ _ _ h => h)
  have hc := (((hc₂.trans hc₃).trans hc₄).trans hc₅).trans hc₆
  refine Prog.leads_bind.mpr ((perform_keeps hI h₆ fun w₇ hc₇ h₇ => ?_).imp
    fun _ w₈ h₈ => hI.publishPendingHealth _ w₈ h₈)
  have hc' := hc.trans hc₇
  obtain ⟨rfl, hread⟩ := hl
  rw [← hc'.host_ledger P, ← hc'.root] at hread
  rw [← hc'.host_ledger P]
  refine h₇.write hread (h₇.sound.awaiting (require_eq_ok.mp hnonce)) ?_
  rw [UpdateLedger.length_json]
  exact Iff.rfl

theorem armHealth_keeps : (armHealth P config nonce).Keeps (LedgerKept P) := by
  intro w h
  have hI : Documental (LedgerKept P) := documental_ledgerKept
  refine observes_lift.then_keeping Prog.keeps_lift h (fun _ w₁ _ hnonce h₁ => ?_)
    (fun _ _ _ h => h)
  refine readLedger_checked.then_keeping (hI.readLedger P) h₁ (fun l w₂ hc₂ hl h₂ => ?_)
    (fun _ _ _ h => h)
  refine observes_need.then_keeping Prog.keeps_need h₂ (fun pending w₃ hc₃ hpending h₃ => ?_)
    (fun _ _ _ h => h)
  refine observes_refuse.then_keeping Prog.keeps_ensure h₃ (fun _ w₄ hc₄ hsame h₄ => ?_)
    (fun _ _ _ h => h)
  refine observes_unixNow.then_keeping hI.unixNow h₄ (fun now w₅ hc₅ _ h₅ => ?_)
    (fun _ _ _ h => h)
  refine observes_need.then_keeping Prog.keeps_need h₅ (fun deadline w₆ hc₆ _ h₆ => ?_)
    (fun _ _ _ h => h)
  have hc := (((hc₂.trans hc₃).trans hc₄).trans hc₅).trans hc₆
  refine Prog.leads_bind.mpr ((perform_keeps hI h₆ fun w₇ hc₇ h₇ => ?_).imp fun _ w₈ h₈ => ?_)
  · have hc' := hc.trans hc₇
    obtain ⟨rfl, hread⟩ := hl
    rw [← hc'.host_ledger P] at hread hpending ⊢
    rw [← hc'.root] at hread
    refine h₇.write hread (h₇.sound.awaiting ?_) ?_
    · exact h₇.sound.pending pending hpending
    · rw [UpdateLedger.length_json]
      exact Iff.rfl
  · exact Prog.Keeps.bind (hI.publishPendingHealth _) (fun _ => Prog.keeps_pure _) w₈ h₈

theorem finishUpdate_keeps (hconfig : config.updates.validate P = .ok ()) (healthy : Bool)
    (reason : String) :
    (finishUpdate P config nonce healthy reason).Keeps (LedgerKept P) := by
  intro w h
  have hI : Documental (LedgerKept P) := documental_ledgerKept
  refine observes_lift.then_keeping Prog.keeps_lift h (fun _ w₁ _ hnonce h₁ => ?_)
    (fun _ _ _ h => h)
  refine readLedger_checked.then_keeping (hI.readLedger P) h₁ (fun l w₂ hc₂ hl h₂ => ?_)
    (fun _ _ _ h => h)
  refine observes_need.then_keeping Prog.keeps_need h₂ (fun pending w₃ hc₃ hpending h₃ => ?_)
    (fun _ _ _ h => h)
  refine observes_refuse.then_keeping Prog.keeps_ensure h₃ (fun _ w₄ hc₄ _ h₄ => ?_)
    (fun _ _ _ h => h)
  refine observes_unixNow.then_keeping hI.unixNow h₄ (fun now w₅ hc₅ _ h₅ => ?_)
    (fun _ _ _ h => h)
  refine observes_lift.then_keeping Prog.keeps_lift h₅ (fun raised w₆ hc₆ hraised h₆ => ?_)
    (fun _ _ _ h => h)
  have hc := (((hc₂.trans hc₃).trans hc₄).trans hc₅).trans hc₆
  refine Prog.leads_bind.mpr ((perform_keeps hI h₆ fun w₇ hc₇ h₇ => ?_).imp
    fun _ w₈ h₈ => hI.removeMailbox w₈ h₈)
  have hc' := hc.trans hc₇
  obtain ⟨rfl, hread⟩ := hl
  rw [← hc'.host_ledger P] at hread hpending hraised
  rw [← hc'.root] at hread
  have hsound : raised.Sound P := by
    cases healthy with
    | true => exact h₇.sound.raise hraised
    | false =>
      cases hraised
      exact h₇.sound
  have hby : (w₇.host.ledger P).raisedBy P (pending.record now healthy reason) = raised := by
    cases healthy with
    | true =>
      show (match raiseFloor P _ pending.version pending.sequence with
        | .ok raised => raised
        | .error _ => _) = raised
      rw [show raiseFloor P _ pending.version pending.sequence = _ from hraised]
    | false =>
      cases hraised
      rfl
  have hhistory : raised.history = (w₇.host.ledger P).history := by
    cases healthy with
    | true => exact (raiseFloor_eq_ok hraised).2.2
    | false =>
      cases hraised
      rfl
  refine h₇.write hread (hsound.close (UpdateConfig.historyLimit_le hconfig)
    (h₇.sound.pending _ hpending)) ?_
  show ledgerSize _ _ _ _ ≤ _ ↔ _
  rw [UpdateLedger.length_json, hby, ← hhistory,
    ← appendHistory_eq (UpdateConfig.one_le_historyLimit hconfig)]
  exact Iff.rfl

theorem LedgerCall.program_keeps {call : LedgerCall}
    (h : call.config.updates.validate P = .ok ()) : (call.program P).Keeps (LedgerKept P) := by
  cases call with
  | commit config manifest nonce => exact commitPending_keeps manifest
  | arm config nonce => exact armHealth_keeps.bind fun _ => Prog.keeps_pure ()
  | finish config nonce healthy reason => exact finishUpdate_keeps h healthy reason

end Calls

/-! ## Whole runs -/

theorem makeCalls_kept (calls : List (LedgerCall × List Turn))
    (hcalls : ∀ call ∈ calls, call.1.config.updates.validate P = .ok ())
    {past : Past Host Event} {h : Host} (hk : LedgerKept P ⟨h, Journal.empty, [], past⟩) :
    LedgerKept P ⟨(makeCalls P calls past h).2, Journal.empty, [],
      (makeCalls P calls past h).1⟩ := by
  induction calls generalizing past h with
  | nil => exact hk
  | cons call rest ih =>
    obtain ⟨call, script⟩ := call
    have hcall := hcalls (call, script) (List.mem_cons_self ..)
    have hw : LedgerKept P (call.program P ⟨h, Journal.empty, script, past⟩).2 :=
      (LedgerCall.program_keeps hcall ⟨h, Journal.empty, script, past⟩
        ⟨hk.sound, hk.room⟩).final
    exact ih (fun call' hmem => hcalls call' (List.mem_cons_of_mem _ hmem)) ⟨hw.sound, hw.room⟩

/-- **The document written last is read back if and only if every write so far
had room for what it added.** The calls are any, in any order and any number,
under validated configurations; each may fail or be killed at any of its
effects. -/
theorem ledger_reads_back_iff (P : Platform) (r : LedgerRun)
    (hversion : ∃ v, parseVersion P P.cargoPkgVersion = .ok v)
    (hcalls : ∀ call ∈ r.calls, call.1.config.updates.validate P = .ok ()) :
    (r.host P).ReadsBack P ↔ Throughout (fun _ h e => e.HasRoom P h) (r.past P) := by
  obtain ⟨v, hv⟩ := hversion
  have hstart : LedgerKept P ⟨r.start, Journal.empty, [], []⟩ :=
    ⟨UpdateLedger.initial_sound hv, iff_of_true (throughout_nil _) (.inl rfl)⟩
  exact (makeCalls_kept r.calls hcalls hstart).readsBack_iff

namespace Sample

/-! A history of failed installations whose errors are control characters. -/

/-- A policy that keeps a hundred records. -/
def hoarding : Config where
  updates := { (config none).updates with historyLimit := 100 }

/-- An error text of control characters, as long as a reason may be. -/
def garbled : String := String.ofList (List.replicate 1024 '\x01')

/-- The transaction that is committed again and again. -/
def committed : PendingUpdate := ⟨nonce₁, "3.0.0", 4, 1000, 1180⟩

/-- The record it leaves. -/
def rolledBack : HistoryEntry := ⟨nonce₁, "3.0.0", 4, 1000, "rolled_back", garbled⟩

def commitCall : LedgerCall := .commit hoarding newer.manifest nonce₁

def finishCall : LedgerCall := .finish hoarding nonce₁ false garbled

/-- So many transactions, each committed and rolled back without a fault. -/
def transactions (n : Nat) : List (LedgerCall × List Turn) :=
  (List.replicate n [(commitCall, quietly 7), (finishCall, quietly 6)]).flatten

def failing (n : Nat) : LedgerRun where
  shared := ⟨none, none, none, []⟩
  installed := current.manifest
  calls := transactions n

/-- The ledger after so many transactions. -/
def hoarded (n : Nat) : UpdateLedger := ⟨"0.5.0", 0, none, List.replicate n rolledBack⟩

theorem committed_record : committed.record 1000 false garbled = rolledBack := by
  have hreason : String.ofList (garbled.toList.take 1024) = garbled := by
    unfold garbled
    rw [String.toList_ofList, List.take_of_length_le (by rw [List.length_replicate])]
  show HistoryEntry.mk _ _ _ _ _ _ = _
  rw [hreason]
  rfl

theorem rolledBack_size : rolledBack.size = 6265 := by
  have hreason : Json.escapedSize garbled = 6144 := by
    unfold garbled
    rw [Json.escapedSize_replicate]
    decide
  have hnonce : Json.escapedSize nonce₁ = 32 := by decide
  have hversion : Json.escapedSize "3.0.0" = 5 := by decide
  have houtcome : Json.escapedSize "rolled_back" = 11 := by decide
  have hdigits : (Json.nat 4).length = 1 ∧ (Json.nat 1000).length = 4 := by decide
  unfold HistoryEntry.size rolledBack
  simp only
  omega

theorem hoarded_sound (n : Nat) (hn : n ≤ 100) : (hoarded n).Sound platform where
  floor := ⟨_, rfl⟩
  history := by
    show (List.replicate n rolledBack).length ≤ 100
    rw [List.length_replicate]
    exact hn
  nonces := by
    intro r hr
    obtain rfl := List.eq_of_mem_replicate hr
    decide
  pending := fun _ hp => nomatch hp

/-- The size grows by the size of the record, and a comma. -/
theorem hoarded_size (n : Nat) (pending : Option PendingUpdate) :
    ledgerSize "0.5.0" 0 pending (List.replicate n rolledBack)
      = 68 + (match pending with
        | none => 4
        | some p => p.size) + (n * 6265 + (n - 1)) := by
  have hfloor : Json.escapedSize "0.5.0" = 5 := by decide
  have hzero : (Json.nat 0).length = 1 := by decide
  unfold ledgerSize
  rw [List.map_replicate, List.sum_replicate, rolledBack_size, List.length_replicate, hfloor,
    hzero, smul_eq_mul]
  omega

/-! What a program does when nothing happens but its effects. -/

section Quiet

variable {h : Host} (past : Past Host Event) {n : Nat}

theorem commitCall_quiet (hl : h.ledger platform = hoarded n)
    (hok : h.root.ledger = none ∨ checkLedger platform (h.ledger platform) = .ok ()) :
    (commitCall.program platform ⟨h, Journal.empty, quietly 7, past⟩).2.host.root.ledger
      = some ((hoarded n).awaiting committed) := by
  have hrun : commitCall.program platform ⟨h, Journal.empty, quietly 7, past⟩ = _ :=
    (andThen_ok rfl).trans (andThen_ok (readLedger_done (t := quiet) rfl rfl hok))
  rw [hrun, show World.host ⟨h, Journal.empty, quietly 7, past⟩ = h from rfl, hl]
  rfl

theorem finishCall_quiet (hl : h.root.ledger = some ((hoarded n).awaiting committed))
    (hok : checkLedger platform ((hoarded n).awaiting committed) = .ok ()) (hn : n < 100) :
    (finishCall.program platform ⟨h, Journal.empty, quietly 6, past⟩).2.host.root.ledger
      = some (hoarded (n + 1)) := by
  have hl' : h.ledger platform = (hoarded n).awaiting committed := Host.ledger_of_root hl
  have hrun : finishCall.program platform ⟨h, Journal.empty, quietly 6, past⟩ = _ :=
    (andThen_ok rfl).trans (andThen_ok (readLedger_done (t := quiet) rfl rfl (.inr (hl' ▸ hok))))
  rw [hrun, show World.host ⟨h, Journal.empty, quietly 6, past⟩ = h from rfl, hl']
  have hhistory : appendHistory 100 (List.replicate n rolledBack) rolledBack
      = List.replicate (n + 1) rolledBack := by
    rw [appendHistory_eq (by decide), List.length_replicate, Nat.sub_eq_zero_of_le hn,
      List.drop_zero, List.replicate_succ']
  show some (UpdateLedger.mk _ _ _ (appendHistory 100 _ (committed.record 1000 false garbled))) = _
  rw [committed_record]
  exact congrArg (fun history => some (UpdateLedger.mk "0.5.0" 0 none history)) hhistory

/-- The transactions follow one another as long as the document is read. -/
theorem transactions_quiet (m : Nat) (hn : n + m ≤ 42) (hl : h.ledger platform = hoarded n) :
    ((makeCalls platform (transactions m) past h).2).ledger platform = hoarded (n + m) := by
  induction m generalizing n h past with
  | zero => exact hl
  | succ m ih =>
    have hsize : committed.size = 109 := by decide
    have hok : checkLedger platform (hoarded n) = .ok () := by
      refine (hoarded_sound n (by omega)).check_eq_ok_iff.mpr ?_
      rw [UpdateLedger.length_json]
      refine (hoarded_size n none).trans_le ?_
      unfold maxLedgerBytes
      dsimp only
      omega
    have hok' : checkLedger platform ((hoarded n).awaiting committed) = .ok () := by
      refine ((hoarded_sound n (by omega)).awaiting (by decide)).check_eq_ok_iff.mpr ?_
      rw [UpdateLedger.length_json]
      refine (hoarded_size n (some committed)).trans_le ?_
      unfold maxLedgerBytes
      dsimp only
      omega
    have hcommit := commitCall_quiet past hl (.inr (hl ▸ hok))
    have hfinish := finishCall_quiet
      (commitCall.program platform ⟨h, Journal.empty, quietly 7, past⟩).2.trace hcommit hok'
      (by omega)
    rw [show n + (m + 1) = n + 1 + m by omega]
    exact ih _ (by omega) (Host.ledger_of_root hfinish)

end Quiet

theorem failing_ledger {n : Nat} (hn : n ≤ 42) :
    ((failing n).host platform).ledger platform = hoarded n := by
  have hquiet : _ = hoarded (0 + n) :=
    transactions_quiet (h := (failing n).start) [] n (by rw [Nat.zero_add]; exact hn) rfl
  rw [Nat.zero_add] at hquiet
  exact hquiet

theorem failing_calls (n : Nat) :
    ∀ call ∈ (failing n).calls, call.1.config.updates.validate platform = .ok () := by
  intro call hcall
  have hvalid : hoarding.updates.validate platform = .ok () := by decide +kernel
  obtain ⟨pair, hpair, hcall⟩ := List.mem_flatten.mp hcall
  obtain rfl := List.eq_of_mem_replicate hpair
  rcases List.mem_pair.mp hcall with rfl | rfl
  · exact hvalid
  · exact hvalid

/-- Whether the document can be read is a matter of the number of records. -/
theorem failing_readsBack_iff {n : Nat} (hn : n ≤ 42) (hpos : 0 < n) :
    ((failing n).host platform).ReadsBack platform ↔ 68 + 4 + (n * 6265 + (n - 1)) ≤ 262144 := by
  have hlast := failing_ledger hn
  have hsome : ((failing n).host platform).root.ledger ≠ none := by
    intro hnone
    rw [Host.ledger, hnone, Option.getD_none] at hlast
    have hcount := congrArg (fun l => l.history.length) hlast
    change 0 = (List.replicate n rolledBack).length at hcount
    rw [List.length_replicate] at hcount
    omega
  have hsize : (hoarded n).json.length = 68 + 4 + (n * 6265 + (n - 1)) := by
    rw [UpdateLedger.length_json]
    exact hoarded_size n none
  rw [Host.readsBack_iff, hlast, (hoarded_sound n (by omega)).check_eq_ok_iff, hsize]
  exact or_iff_right hsome

/-- **Forty-two installations that fail with 1024 control characters leave a
ledger that is not read again**: each character takes six bytes in the
document, and the records together more than 256 KiB. -/
theorem garbled_ledger_not_read :
    (∃ v, parseVersion platform platform.cargoPkgVersion = .ok v) ∧
      (∀ call ∈ (failing 42).calls, call.1.config.updates.validate platform = .ok ()) ∧
      ¬ ((failing 42).host platform).ReadsBack platform := by
  refine ⟨⟨_, rfl⟩, failing_calls 42, ?_⟩
  rw [failing_readsBack_iff (by omega) (by omega)]
  omega

/-- One such transaction is read back: its record has room. -/
theorem ledger_reads_back_once :
    ((failing 1).host platform).ReadsBack platform ∧
      Throughout (fun _ h e => e.HasRoom platform h) ((failing 1).past platform) := by
  have hread : ((failing 1).host platform).ReadsBack platform :=
    (failing_readsBack_iff (by omega) (by omega)).mpr (by omega)
  exact ⟨hread, (ledger_reads_back_iff platform (failing 1) ⟨_, rfl⟩ (failing_calls 1)).mp hread⟩

end Sample

end Lariska
