import Lariska.SupervisorRuns

/-!
# How long a failure is remembered

A release that failed its health window is refused from then on, and what
refuses it is the history of the ledger. The history is bounded: under one
configuration it is exactly the last `history_limit` records of the run, so a
failure is refused until as many later transactions have pushed it out.
-/

namespace Lariska

variable {P : Platform} {Configs : Config → Prop} {past : Past Host Event} {h : Host} {e : Event}

/-- The record an event adds to the history. -/
def Event.records : Event → Option HistoryEntry
  | .wroteLedger (.record _ r) _ => some r
  | _ => none

/-- The records of all finished transactions, newest first. -/
def recorded (past : Past Host Event) : List HistoryEntry :=
  past.filterMap fun x => x.1.records

/-- Among these records none is of a failure of the release. -/
def Unfailed (records : List HistoryEntry) (version : String) (sequence : Nat) : Prop :=
  ∀ r ∈ records, r.failed = true → r.version = version → r.sequence ≠ sequence

instance (records : List HistoryEntry) (version : String) (sequence : Nat) :
    Decidable (Unfailed records version sequence) := by
  unfold Unfailed
  infer_instance

/-- A transaction is committed only while every failure of its release is
among the last `limit` records. -/
def Event.WithinMemory (limit : Nat) (past : Past Host Event) : Event → Prop
  | .wroteLedger (.commit _ p) _ => Unfailed ((recorded past).drop limit) p.version p.sequence
  | _ => True

instance (limit : Nat) (past : Past Host Event) (e : Event) :
    Decidable (e.WithinMemory limit past) := by
  unfold Event.WithinMemory
  rcases e with ⟨⟩
  case wroteLedger why _ => rcases why with ⟨⟩ <;> infer_instance
  all_goals infer_instance

/-- A release handed to the forward installer has not failed before. -/
def Event.AvoidsFailed (past : Past Host Event) : Event → Prop
  | .installing ⟨.forward _, _, m, _, _⟩ => Unfailed (recorded past) m.version m.sequence
  | _ => True

instance (past : Past Host Event) (e : Event) : Decidable (e.AvoidsFailed past) := by
  unfold Event.AvoidsFailed
  rcases e with ⟨⟩
  case installing call =>
    rcases call with ⟨⟨⟩, _, _, _, _⟩ <;> infer_instance
  all_goals infer_instance

/-- Appending to a history that is the end of a list of records. -/
theorem appendHistory_take (limit : Nat) (records : List HistoryEntry) (r : HistoryEntry) :
    appendHistory limit (records.take limit).reverse r =
      ((r :: records).take limit).reverse := by
  have happend : (records.take limit).reverse ++ [r] = (r :: records.take limit).reverse :=
    List.reverse_cons.symm
  have hlength : ∀ l : List HistoryEntry, l.take (l.length - (l.length - limit)) = l.take limit :=
    fun l => List.take_eq_take_iff.mpr (by omega)
  rw [appendHistory, happend, List.drop_reverse, List.length_reverse, hlength]
  cases limit with
  | zero => rfl
  | succ n =>
    rw [List.take_succ_cons, List.take_succ_cons, List.take_take, min_eq_left (Nat.le_succ n)]

/-- **The history of the ledger is the end of the record of the run**, and
the release that is pending has no failure in all of it. -/
structure Remembers (P : Platform) (limit : Nat) (past : Past Host Event) (h : Host) :
    Prop where
  history : (h.ledger P).history = ((recorded past).take limit).reverse
  clean : ∀ p, (h.ledger P).pending = some p → Unfailed (recorded past) p.version p.sequence

/-- Closing a transaction adds its record. -/
theorem Remembers.close {config : Config} {p : PendingUpdate} {r : HistoryEntry}
    {l : UpdateLedger} (hm : Remembers P config.updates.historyLimit past h)
    (rule : Closes P config h p r l) :
    Remembers P config.updates.historyLimit ((.wroteLedger (.record config r) l, h) :: past)
      (h.setLedger l) := by
  refine ⟨?_, fun p' hp' => ?_⟩
  · show l.history = ((r :: recorded past).take _).reverse
    rw [rule.history, hm.history, appendHistory_take]
  · exact absurd (rule.closed.symm.trans hp') (by simp)

/-- A step that adds no record, and leaves the pending release and the
history as they are. -/
theorem Remembers.congr {limit : Nat} {h' : Host} (hm : Remembers P limit past h)
    (hhist : (h'.ledger P).history = (h.ledger P).history)
    (hpend : ∀ p', (h'.ledger P).pending = some p' →
      ∃ p, (h.ledger P).pending = some p ∧ p.version = p'.version ∧ p.sequence = p'.sequence)
    (hrec : e.records = none) : Remembers P limit ((e, h) :: past) h' := by
  have hcons : recorded ((e, h) :: past) = recorded past := by
    rw [recorded, List.filterMap_cons, hrec]
    rfl
  refine ⟨by rw [hhist, hcons, hm.history], fun p' hp' => ?_⟩
  obtain ⟨p, hp, hv, hs⟩ := hpend p' hp'
  rw [hcons, ← hv, ← hs]
  exact hm.clean p hp

/-- **Every step of a run under one configuration keeps the memory.** -/
theorem Remembers.keep {config : Config} (hm : Remembers P config.updates.historyLimit past h)
    (hnone : config.updates.emergencyVersion = none)
    (he : Permitted P (Loaded P (· = config)) past h e)
    (hC : e.WithinMemory config.updates.historyLimit past) :
    Remembers P config.updates.historyLimit ((e, h) :: past) (e.apply h) := by
  cases he with
  | @commit config' p inForce rule =>
    refine ⟨hm.history, fun p' hp' => ?_⟩
    cases hp'
    have hadmits : config'.admits p.version ≠ true := by
      rw [inForce.inForce, Config.admits, hnone]
      simp
    have hhist := rule.unrefused.resolve_left hadmits
    -- A record is in the history on disk or has been pushed out of it.
    intro r hr
    have hsplit : r ∈ (recorded past).take config.updates.historyLimit ++
        (recorded past).drop config.updates.historyLimit := by
      rw [List.take_append_drop]
      exact hr
    rcases List.mem_append.mp hsplit with hin | hout
    · refine hhist r ?_
      rw [hm.history]
      exact List.mem_reverse.mpr hin
    · exact hC r hout
  | @arm p l rule =>
    obtain ⟨startedAt, deadline, rfl⟩ := rule.ledger
    refine hm.congr rfl (fun p' hp' => ?_) rfl
    cases hp'
    exact ⟨p, rule.pending, rfl, rfl⟩
  | @promote config' p r l inForce rule =>
    cases inForce.inForce
    exact hm.close rule.toCloses
  | @abandon config' p r l inForce rule =>
    cases inForce.inForce
    exact hm.close rule.toCloses
  | @raise m l rule =>
    exact hm.congr rule.history (fun p' hp' => absurd (rule.unpended.symm.trans hp') (by simp)) rfl
  | advance effective _ _ rule =>
    refine hm.congr (congrArg UpdateLedger.history (Event.ledger_apply P h _)) (fun p' hp' => ?_) rfl
    rw [Event.ledger_apply] at hp'
    exact ⟨p', hp', rfl, rfl⟩
  | retreat effective _ _ rule =>
    refine hm.congr (congrArg UpdateLedger.history (Event.ledger_apply P h _)) (fun p' hp' => ?_) rfl
    rw [Event.ledger_apply] at hp'
    exact ⟨p', hp', rfl, rfl⟩
  | _ => exact hm.congr rfl (fun p' hp' => ⟨p', hp', rfl, rfl⟩) rfl

/-- **A release that failed is not installed again**, as long as no
transaction is committed for a release whose failure the bounded history no
longer holds: over any run under one configuration without an emergency
version, no package handed to the forward installer is of a version and
sequence recorded rolled back before, for a reason other than an interruption
before the installation. -/
theorem failed_not_reinstalled (P : Platform) (r : Run) (config : Config)
    (fixed : ∀ c, r.Uses c → c = config) (hnone : config.updates.emergencyVersion = none)
    (hC : Throughout (fun past _ e => e.WithinMemory config.updates.historyLimit past)
      (r.past P)) :
    Throughout (fun past _ e => e.AvoidsFailed past) (r.past P) := by
  have hs : Supervised P (Loaded P (· = config)) (r.past P) (r.host P) := r.supervised P fixed
  refine hs.throughout (I := Remembers P config.updates.historyLimit) hC ?_ ?_
  · intro past h hs hC
    refine hs.invariant hC (fun h hf => ?_) ?_
    · have hl : h.ledger P = UpdateLedger.initial P := by
        rw [Host.ledger, show h.root = ⟨none, none, []⟩ from hf]
        rfl
      refine ⟨?_, fun p hp => ?_⟩
      · rw [hl, recorded, List.filterMap_nil, List.take_nil]
        rfl
      · rw [hl] at hp
        cases hp
    · rintro past h e _ hm hC ⟨he, rfl⟩
      exact hm.keep hnone he hC
  · rintro past h e _ hm - ⟨he, -⟩
    cases he with
    | @advance config' m bytes nonce effective inForce vouched rule =>
      obtain ⟨p, hp, hreceipt⟩ := rule.awaited
      have hv : p.version = m.version := congrArg ConsumedRequest.version hreceipt
      have hseq : p.sequence = m.sequence := congrArg ConsumedRequest.sequence hreceipt
      show Unfailed (recorded past) m.version m.sequence
      rw [← hv, ← hseq]
      exact hm.clean p hp
    | retreat effective inForce vouched rule => trivial
    | _ => trivial

section Loop

open Sample

/-- A policy that keeps the last transaction only. -/
def brief : Config where
  updates := { (config none).updates with historyLimit := 1 }

def seedingBriefly : Command × List Turn :=
  (.seed brief (some current.signed) (some current.artifact), quietly 40)

/-- A request whose restart is reported as failed, and that is rolled back. -/
def rollingBackBriefly (nonce : String) (r : Release) : Command × List Turn :=
  (.supervise brief 1, request nonce r :: quietly 43 ++ failed :: quietly 40)

/-- A release fails and is requested again. -/
def refusing : Run := on [seedingBriefly, rollingBackBriefly nonce₁ newer,
  rollingBackBriefly nonce₂ newer]

theorem failed_not_reinstalled_refusing :
    Throughout (fun past _ e => e.AvoidsFailed past) (refusing.past platform) := by
  refine failed_not_reinstalled platform refusing brief ?_ rfl ?_
  · rintro c ⟨process, hp, rfl⟩
    simp only [refusing, on, List.mem_cons, List.not_mem_nil, or_false] at hp
    rcases hp with rfl | rfl | rfl <;> rfl
  · decide +kernel

/-- A release fails, another one fails and pushes its record out, and the
first is requested again. -/
def looping : Run := on [seedingBriefly, rollingBackBriefly nonce₁ newer,
  rollingBackBriefly nonce₂ better,
  (.supervise brief 1, request nonce₃ newer :: quietly 36)]

/-- **A failure that has left the history no longer bars its release.** -/
theorem failed_reinstalled :
    (∀ c, looping.Uses c → c = brief) ∧ brief.updates.emergencyVersion = none ∧
      ¬ Throughout (fun past _ e => e.AvoidsFailed past) (looping.past platform) := by
  refine ⟨?_, rfl, ?_⟩
  · rintro c ⟨process, hp, rfl⟩
    simp only [looping, on, List.mem_cons, List.not_mem_nil, or_false] at hp
    rcases hp with rfl | rfl | rfl | rfl <;> rfl
  · decide +kernel

end Loop

end Lariska
