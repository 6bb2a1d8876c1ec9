import Lariska.ReleaseFloor

/-!
# Receipts against replay

A request nonce is reserved under a receipt before its package is installed,
and a nonce with a receipt is not accepted again. Receipts are dropped only
when the floor rejects their release, so a dropped receipt bars its request
through the floor instead – until an override admits exactly that version.
Short of that, no request is installed twice.
-/

namespace Lariska

variable {P : Platform} {Configs : Config → Prop} {past : Past Host Event} {h : Host} {e : Event}

/-! ## What is handed over, and what is dropped -/

/-- The request an event installs: its nonce, version and sequence. -/
def Event.handsOver : Event → Option ConsumedRequest
  | .installing ⟨.forward nonce, _, m, _, _⟩ => some (m.receipt nonce)
  | _ => none

/-- The requests handed to the forward installer, one entry a call. -/
def handedOver (past : Past Host Event) : List ConsumedRequest :=
  past.filterMap fun x => x.1.handsOver

/-- The receipts an event drops from the journal on disk. -/
def Event.drops (e : Event) (h : Host) : List ConsumedRequest :=
  match e with
  | .wroteJournal _ j => h.journal.consumed.filter fun r => r ∉ j.consumed
  | _ => []

/-- The receipts dropped so far. -/
def dropped (past : Past Host Event) : List ConsumedRequest :=
  past.flatMap fun x => x.1.drops x.2

/-- A request is not accepted under an override of its version once its
receipt has been dropped. -/
def Event.HonoursDropped (past : Past Host Event) : Event → Prop
  | .wroteJournal (.reserve config true receipt) _ =>
    config.admits receipt.version = true → receipt ∉ dropped past
  | _ => True

instance (past : Past Host Event) (e : Event) : Decidable (e.HonoursDropped past) := by
  unfold Event.HonoursDropped
  rcases e with ⟨⟩
  case wroteJournal why _ =>
    rcases why with ⟨⟩
    case reserve _ accepting _ => rcases accepting with ⟨⟩ <;> infer_instance
    all_goals infer_instance
  all_goals infer_instance

/-- A request that will not be accepted again: its receipt is on record, or
has been dropped from under a floor that rejects it. -/
def Host.Bars (P : Platform) (past : Past Host Event) (h : Host) (r : ConsumedRequest) : Prop :=
  r ∈ h.journal.consumed ∨ r ∈ dropped past ∧ (h.ledger P).Rejects P r.version r.sequence

/-- A receipt leaves the journal on disk only when the floor rejects its
release. -/
theorem Permitted.receipt_kept (he : Permitted P Configs past h e) {r : ConsumedRequest}
    (hr : r ∈ h.journal.consumed) :
    r ∈ (e.apply h).journal.consumed ∨
      r ∈ e.drops h ∧ (h.ledger P).Rejects P r.version r.sequence := by
  have key : ∀ {config : Config} {receipt : ConsumedRequest} {j : Journal} {accepting : Bool},
      Reserves P config h receipt j → r ∈ j.consumed ∨
        r ∈ (Event.wroteJournal (.reserve config accepting receipt) j).drops h ∧
          (h.ledger P).Rejects P r.version r.sequence := by
    intro config receipt j accepting rule
    by_cases hj : r ∈ j.consumed
    · exact .inl hj
    · have hprunes := (rule.kept r hr).resolve_left hj
      exact .inr ⟨List.mem_filter.mpr ⟨hr, by simpa using hj⟩, hprunes.rejected⟩
  rw [Event.journal_apply]
  cases he with
  | accept inForce rule => exact key rule.toReserves
  | renew inForce rule => exact key rule.toReserves
  | @settle q outcome j rule =>
    refine .inl ?_
    rw [rule.journal]
    exact hr
  | _ => exact .inl hr

/-- **A request that is barred stays barred.** -/
theorem Host.Bars.keep {r : ConsumedRequest} (hb : h.Bars P past r)
    (he : Permitted P Configs past h e) : (e.apply h).Bars P ((e, h) :: past) r := by
  have hle := he.floorLe
  have hcons : dropped ((e, h) :: past) = e.drops h ++ dropped past := rfl
  rcases hb with hr | ⟨hd, hrej⟩
  · refine (he.receipt_kept hr).imp_right fun ⟨hd, hrej⟩ => ⟨?_, hle.rejects hrej⟩
    rw [hcons]
    exact List.mem_append_left _ hd
  · refine .inr ⟨?_, hle.rejects hrej⟩
    rw [hcons]
    exact List.mem_append_right _ hd

/-- **A barred request is not accepted again.** -/
theorem Accepts.not_barred {config : Config} {receipt : ConsumedRequest} {j : Journal}
    (rule : Accepts P config h receipt j)
    (hC : (Event.wroteJournal (.reserve config true receipt) j).HonoursDropped past) :
    ¬ h.Bars P past receipt := by
  rintro (hr | ⟨hd, hrej⟩)
  · exact (rule.unbarred receipt hr rfl).not_admitted rule.admitted
  · rcases rule.admitted with hadmits | hclears
    · exact hC hadmits hd
    · exact hclears.not_rejects hrej

/-! ## One installation a request -/

/-- The requests handed over, with the one reserved for the next
installation. -/
def spent (past : Past Host Event) : List ConsumedRequest :=
  (reserved past).toList ++ handedOver past

/-- **The invariant**: no request is spent twice, and a spent one is
barred. -/
structure SpentOnce (P : Platform) (past : Past Host Event) (h : Host) : Prop where
  nodup : (spent past).Nodup
  barred : ∀ r ∈ spent past, h.Bars P past r

/-- An event that neither accepts nor installs spends nothing: what is spent
after it was spent before. -/
theorem SpentOnce.keep_of_spent (hi : SpentOnce P past h) (he : Permitted P Configs past h e)
    (hspent : spent ((e, h) :: past) = spent past) :
    SpentOnce P ((e, h) :: past) (e.apply h) := by
  refine ⟨?_, fun r hr => ?_⟩
  · rw [hspent]
    exact hi.nodup
  · rw [hspent] at hr
    exact (hi.barred r hr).keep he

/-- **Every step under the condition keeps requests spent once.** -/
theorem SpentOnce.keep (hi : SpentOnce P past h) (he : Permitted P Configs past h e)
    (hC : e.HonoursDropped past) : SpentOnce P ((e, h) :: past) (e.apply h) := by
  cases hP : he with
  | @accept config receipt j inForce rule =>
    -- The receipt takes the place of a reservation that was not used.
    have hsub : (handedOver past).Sublist (spent past) := List.sublist_append_right _ _
    have hnew : receipt ∉ handedOver past := fun hr =>
      rule.not_barred hC (hi.barred receipt (hsub.subset hr))
    have hspent : spent ((Event.wroteJournal (.reserve config true receipt) j, h) :: past) =
        receipt :: handedOver past := rfl
    refine ⟨?_, fun r hr => ?_⟩
    · rw [hspent]
      exact List.nodup_cons.mpr ⟨hnew, hi.nodup.sublist hsub⟩
    · rw [hspent] at hr
      rcases List.mem_cons.mp hr with rfl | hr
      · exact .inl rule.recorded
      · exact (hi.barred r (hsub.subset hr)).keep he
  | @advance config m bytes nonce effective inForce vouched rule =>
    refine hi.keep_of_spent he ?_
    show m.receipt nonce :: handedOver past = spent past
    rw [spent, rule.reserved]
    rfl
  | _ => exact hi.keep_of_spent he rfl

/-- **No request is installed twice**, as long as the override never names
the version of a request whose receipt has been dropped: over any run whose
acceptances all meet the condition, the forward installer is invoked at most
once for each nonce, version and sequence. -/
theorem installed_once (P : Platform) (r : Run)
    (hC : Throughout (fun past _ e => e.HonoursDropped past) (r.past P)) :
    (handedOver (r.past P)).Nodup := by
  have hspent : SpentOnce P (r.past P) (r.host P) := by
    refine (r.supervised_uses P).invariant (I := SpentOnce P) hC ?_ ?_
    · intro h _
      exact ⟨List.nodup_nil, fun r hr => absurd hr (List.not_mem_nil)⟩
    · rintro past h e _ hi hC ⟨he, rfl⟩
      exact hi.keep he hC
  exact hspent.nodup.sublist (List.sublist_append_right _ _)

section Replay

open Sample

/-- An emergency release is installed and recorded healthy. -/
def overriding : List (Command × List Turn) := [
  (seeding none current, quietly 40),
  (supervising (some older.version) 2,
    request nonce₁ older :: quietly 43 ++ after .ackHealth :: quietly 40)]

theorem installed_once_overriding : (handedOver ((on overriding).past platform)).Nodup := by
  refine installed_once platform (on overriding) ?_
  decide +kernel

/-- ... then a process without the override installs the next release and
drops the receipt, and one with the override finds the first request still in
the queue. -/
def replaying : Run := on (overriding ++ [
  (supervising none 2,
    request nonce₂ newer :: quietly 43 ++ after .ackHealth :: quietly 40),
  (supervising (some older.version) 1, request nonce₁ older :: quietly 36)])

/-- **A dropped receipt lets its request be installed again** once the
override names its version. -/
theorem installed_again : ¬ (handedOver (replaying.past platform)).Nodup := by
  decide +kernel

end Replay

end Lariska
