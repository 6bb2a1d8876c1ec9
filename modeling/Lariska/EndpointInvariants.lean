import Lariska.EndpointQueue

/-!
# What the supervisor leaves alone

Between two effects of the endpoint the supervisor lists the queue or answers a
request; it changes nothing in the queue. An invariant that only the endpoint's
own events can break is `Undisturbed`, and the programs that change nothing in
the state directory keep every such invariant.
-/

namespace Lariska.Endpoint

variable {s : Station} {e : Event} {w : World}

@[simp] theorem Station.names_update (s : Station) (name : String) (f : Request → Request) :
    (s.update name f).names = s.names := by
  show (s.shared.incoming.map _).map Prod.fst = s.shared.incoming.map Prod.fst
  rw [List.map_map]
  refine List.map_congr_left fun entry _ => ?_
  show (if entry.1 = name then _ else _ : String × Request).1 = entry.1
  split <;> rfl

/-- **All the supervisor does**: it lists directories that are there, or it
acknowledges a request it has listed. -/
theorem SupervisorAct.event_cases {act : SupervisorAct} (he : act.event s = some e) :
    (∃ names, e = .listed names ∧ (∀ name ∈ names, name ∈ s.names) ∧
      names.length ≤ s.shared.incoming.length) ∨
    ∃ result, e = .answered result ∧ result.nonce ∈ s.listed := by
  cases act with
  | list =>
    refine .inl ⟨_, (Option.some.inj he).symm, fun name hn => ?_, ?_⟩
    · obtain ⟨entry, hentry, rfl⟩ := List.mem_map.mp ((List.mem_insertionSort _).mp hn)
      exact List.mem_map_of_mem (List.mem_of_mem_take (List.mem_of_mem_filter hentry))
    · rw [List.length_insertionSort, List.length_map]
      exact (List.length_filter_le _ _).trans (List.length_take_le' _ _)
  | acknowledge nonce outcome now =>
    simp only [SupervisorAct.event, Option.ite_none_right_eq_some, Option.some.injEq] at he
    exact .inr ⟨_, he.2.symm, he.1.1⟩

/-- The supervisor leaves the queue alone. -/
theorem SupervisorAct.incoming_apply {act : SupervisorAct} (he : act.event s = some e) :
    (e.apply s).shared.incoming = s.shared.incoming := by
  obtain ⟨names, rfl, -⟩ | ⟨result, rfl, -⟩ := SupervisorAct.event_cases he
  · rfl
  · rfl

theorem SupervisorAct.names_apply {act : SupervisorAct} (he : act.event s = some e) :
    (e.apply s).names = s.names :=
  congrArg (List.map Prod.fst) (SupervisorAct.incoming_apply he)

/-! ## Programs that change nothing -/

/-- **An invariant that neither the script nor the supervisor breaks.** -/
structure Undisturbed (I : World → Prop) : Prop where
  turns : ∀ {w : World} {t : Turn} {script : List Turn}, w.script = t :: script → I w →
    I { w with script }
  acts : ∀ {w : World} (act : SupervisorAct), I w → I (w.supervise act)

/-- It is enough that an event which leaves the queue as it is keeps it. -/
theorem undisturbed_of_incoming {I : World → Prop}
    (turns : ∀ {w : World} {t : Turn} {script : List Turn}, w.script = t :: script → I w →
      I { w with script })
    (events : ∀ {w : World} {e : Event},
      (e.apply w.station).shared.incoming = w.station.shared.incoming → I w → I (w.happen e)) :
    Undisturbed I where
  turns := turns
  acts := by
    intro w act hi
    unfold World.supervise
    cases he : act.event w.station with
    | none => exact hi
    | some e => exact events (SupervisorAct.incoming_apply he) hi

namespace Undisturbed

variable {I : World → Prop} (hI : Undisturbed I)

include hI

theorem supervises (acts : List SupervisorAct) {w : World} (hi : I w) :
    I (acts.foldl World.supervise w) := by
  induction acts generalizing w with
  | nil => exact hi
  | cons act acts ih => exact ih (hI.acts act hi)

/-- The turn taken is one of the script. -/
theorem turn_leads (hi : I w) :
    turn.Leads w (fun t w' => t ∈ w.script ∧ I w') (fun _ _ => False) I := by
  unfold Prog.Leads Endpoint.turn
  cases hscript : w.script with
  | nil => exact hi
  | cons t script =>
    have hacts := hI.supervises t.acts (hI.turns hscript hi)
    cases hfate : t.fate with
    | killed => simpa [hfate] using hacts
    | _ => simpa [hfate] using hacts

theorem stepOr_leads (fault : String → Fault) (hi : I w) :
    (stepOr fault).Leads w (fun t w' => t ∈ w.script ∧ I w') (fun _ => I) I := by
  refine Prog.leads_bind.mpr ((hI.turn_leads hi).mono (fun t w' ht => ?_) (fun _ _ h => h.elim)
    fun _ h => h)
  cases t.fate with
  | failed _ => exact (Prog.leads_fail _).mpr ht.2
  | _ => exact (Prog.leads_pure _).mpr ht

theorem turn : turn.Keeps I := fun _ hi =>
  (hI.turn_leads hi).mono (fun _ _ h => h.2) (fun _ _ h => h.elim) fun _ h => h

theorem stepOr (fault : String → Fault) : (stepOr fault).Keeps I := fun _ hi =>
  (hI.stepOr_leads fault hi).imp fun _ _ h => h.2

theorem step : step.Keeps I := hI.stepOr _

theorem discards (fault : String → Fault) : (discard (Endpoint.stepOr fault) : Act Unit).Keeps I :=
  fun w hi => Prog.leads_map.mpr (hI.stepOr fault w hi)

theorem unixNow : unixNow.Keeps I := hI.step.bind fun _ => Prog.keeps_pure _

theorem readLedger (P : Platform) : (readLedger P).Keeps I := by
  refine hI.step.bind fun _ => Prog.keeps_get.bind fun w => ?_
  cases w.station.ledger with
  | none => exact Prog.keeps_pure _
  | some ledger => exact Prog.keeps_lift.bind fun _ => Prog.keeps_pure ledger

theorem verifyManifest (P : Platform) (config : Config) (signed : SignedManifest) :
    (verifyManifest P config signed).Keeps I :=
  Prog.keeps_lift.bind fun _ => hI.unixNow.bind fun _ => Prog.keeps_ensure.bind fun _ =>
    Prog.keeps_lift.bind fun _ => (hI.readLedger P).bind fun _ =>
      Prog.keeps_lift.bind fun _ => Prog.keeps_lift.bind fun _ =>
        Prog.keeps_ensure.bind fun _ => Prog.keeps_ensure

/-- An event that changes the invariant into another, if it takes place. -/
theorem performs {J : World → Prop} (hi : I w) (hstep : ∀ w', I w' → J (w'.happen e)) :
    (perform e).Leads w (fun _ => J) (fun _ => I) I :=
  Prog.leads_bind.mpr ((hI.step w hi).imp fun _ w' h => Prog.leads_modify.mpr (hstep w' h))

end Undisturbed

end Lariska.Endpoint
