import Lariska.EndpointInvariants
import Lariska.SupervisorRuns

/-!
# What a full queue means

`queue_update` refuses while anything is in its queue. What it takes that to
mean is that a request is out: published, and not yet acknowledged by the
supervisor. `refusals_are_answered_for` says that this is so in every run that
keeps away from four things.

* A staging directory is left behind unpublished – by a kill, which skips the
  guard, or by a removal that fails in the guard.
* A request result is there and cannot be read, which counts as none.
* An acknowledgement arrives between the reading of the result and the look
  into the queue.
* A random nonce is that of a result still in place.

The proof is an invariant of the directory with its history, `Orderly`: at
most one directory, and the result is always for it once it is acknowledged.
-/

namespace Lariska.Endpoint

/-! ## What the supervisor has said -/

/-- The request of this name was acknowledged since its directory was made. -/
def acknowledged : Past Station Event → String → Bool
  | [], _ => false
  | (.answered result, _) :: past, name => result.nonce == name || acknowledged past name
  | (.madeDir made, _) :: past, name => made != name && acknowledged past name
  | _ :: past, name => acknowledged past name

/-- Between the reading of the result and the look into the queue: the request
that is being removed. -/
def reaping : Past Station Event → Option (Option String)
  | [] => none
  | (.sawResult found, _) :: _ => some (found.map RequestResult.nonce)
  | (.looked, _) :: _ => none
  | (.returned, _) :: _ => none
  | (.died, _) :: _ => none
  | _ :: past => reaping past

/-- The result is for the request of this name. -/
def Station.answers (s : Station) (name : String) : Prop :=
  ∃ result ∈ s.shared.result, result.nonce = name

/-- Every directory is published, or one the supervisor has acknowledged. -/
def Station.Settled (s : Station) : Prop :=
  ∀ e ∈ s.shared.incoming, e.2.ready = true ∨ s.answers e.1

/-- **What a step must keep away from.** -/
def Event.Sound (past : Past Station Event) (s : Station) : Event → Prop
  | .died => s.Settled
  | .dropFailed _ => s.Settled
  | .sawResult none => ∀ name ∈ s.names, ¬ s.answers name
  | .answered result =>
    ∀ removing ∈ reaping past, result.nonce ∈ s.names → removing = some result.nonce
  | .madeDir name => ¬ s.answers name
  | _ => True

/-- Whoever is refused is refused for published requests which the supervisor
has not acknowledged, and for at least one. -/
def Event.RefusesRightly (past : Past Station Event) (s : Station) : Event → Prop
  | .refused => s.shared.incoming ≠ [] ∧
      ∀ e ∈ s.shared.incoming, e.2.ready = true ∧ acknowledged past e.1 = false
  | _ => True

instance (s : Station) (name : String) : Decidable (s.answers name) := by
  unfold Station.answers
  infer_instance

instance (s : Station) : Decidable s.Settled := by
  unfold Station.Settled
  infer_instance

instance (past : Past Station Event) (s : Station) (e : Event) : Decidable (e.Sound past s) := by
  unfold Event.Sound
  rcases e with ⟨⟩
  case sawResult result => rcases result with ⟨⟩ <;> infer_instance
  all_goals infer_instance

instance (past : Past Station Event) (s : Station) (e : Event) :
    Decidable (e.RefusesRightly past s) := by
  unfold Event.RefusesRightly
  rcases e with ⟨⟩ <;> infer_instance

/-! ## The invariant -/

/-- **The directory and its history agree**: one directory at most, one listed
request at most, and the result is for the directory exactly when it was
acknowledged; then the supervisor knows of no other. -/
structure Orderly (past : Past Station Event) (s : Station) : Prop where
  single : s.shared.incoming.length ≤ 1
  heard : s.listed.length ≤ 1
  answered : ∀ name ∈ s.names, acknowledged past name = true ↔ s.answers name
  attends : ∀ name ∈ s.names, acknowledged past name = true → ∀ other ∈ s.listed, other = name

/-- The events that leave the names, the result and the listing alone. -/
def Event.Plain : Event → Prop
  | .listed _ | .answered _ | .removedDir _ | .removedResult | .madeDir _ => False
  | _ => True

variable {past : Past Station Event} {s : Station} {e : Event}

theorem Station.length_names (s : Station) : s.names.length = s.shared.incoming.length :=
  List.length_map _

/-- The same names, result and listing. -/
structure Alike (s s' : Station) : Prop where
  names : s'.names = s.names
  result : s'.shared.result = s.shared.result
  listed : s'.listed = s.listed

theorem Event.Plain.alike (he : e.Plain) (s : Station) : Alike s (e.apply s) := by
  cases e with
  | stripped name kept => exact ⟨s.names_update name kept.of, rfl, rfl⟩
  | received name chunk => exact ⟨s.names_update name _, rfl, rfl⟩
  | wroteManifest name bytes => exact ⟨s.names_update name _, rfl, rfl⟩
  | published ready => exact ⟨s.names_update ready.nonce _, rfl, rfl⟩
  | listed _ | answered _ | removedDir _ | removedResult | madeDir _ => exact he.elim
  | _ => exact ⟨rfl, rfl, rfl⟩

theorem Event.Plain.acknowledged (he : e.Plain) (name : String) :
    acknowledged ((e, s) :: past) name = acknowledged past name := by
  cases e with
  | listed _ | answered _ | removedDir _ | removedResult | madeDir _ => exact he.elim
  | _ => rfl

theorem Alike.answers {s' : Station} (h : Alike s s') (name : String) :
    s'.answers name ↔ s.answers name := by
  unfold Station.answers
  rw [h.result]

theorem Orderly.plain (h : Orderly past s) (he : e.Plain) :
    Orderly ((e, s) :: past) (e.apply s) := by
  have halike := he.alike s
  refine ⟨?_, ?_, fun name hn => ?_, fun name hn hack => ?_⟩
  · rw [← Station.length_names, halike.names, Station.length_names]
    exact h.single
  · rw [halike.listed]
    exact h.heard
  · rw [he.acknowledged, halike.answers]
    exact h.answered name (halike.names ▸ hn)
  · rw [halike.listed]
    exact h.attends name (halike.names ▸ hn) (he.acknowledged name ▸ hack)

/-- A directory goes. -/
theorem Orderly.removedDir (h : Orderly past s) (name : String) :
    Orderly ((.removedDir name, s) :: past) (Event.apply (.removedDir name) s) := by
  have hsub : ∀ n ∈ (Event.apply (.removedDir name) s).names, n ∈ s.names := by
    intro n hn
    obtain ⟨entry, hentry, rfl⟩ := List.mem_map.mp hn
    exact List.mem_map_of_mem (List.mem_of_mem_filter hentry)
  refine ⟨(List.length_filter_le _ _).trans h.single, h.heard, fun n hn => ?_, fun n hn => ?_⟩
  · exact h.answered n (hsub n hn)
  · exact h.attends n (hsub n hn)

/-- A removed directory is not there. -/
theorem Station.not_mem_names_removedDir (s : Station) (name : String) :
    name ∉ (Event.apply (.removedDir name) s).names := by
  intro hn
  obtain ⟨entry, hentry, hname⟩ := List.mem_map.mp hn
  have hne := (List.mem_filter.mp hentry).2
  simp [hname] at hne

/-- The only directory has the only name. -/
theorem Orderly.eq_of_mem (h : Orderly past s) {name other : String} (hn : name ∈ s.names)
    (ho : other ∈ s.names) : other = name := by
  have hlen : s.names.length ≤ 1 := s.length_names.trans_le h.single
  obtain ⟨a, ha⟩ := List.length_eq_one_iff.mp (hlen.antisymm (List.length_pos_of_mem hn))
  rw [ha, List.mem_singleton] at hn ho
  rw [hn, ho]

/-! ## What the supervisor does -/

/-- An acknowledgement adds one name to those acknowledged. -/
theorem acknowledged_answered {result : RequestResult} {name : String} :
    acknowledged ((.answered result, s) :: past) name = true ↔
      result.nonce = name ∨ acknowledged past name = true := by
  show (result.nonce == name || acknowledged past name) = true ↔ _
  rw [Bool.or_eq_true, beq_iff_eq]

/-- The supervisor acknowledges the request it has listed. -/
theorem Orderly.acknowledge (h : Orderly past s) {result : RequestResult}
    (hlisted : result.nonce ∈ s.listed) :
    Orderly ((.answered result, s) :: past) (Event.apply (.answered result) s) := by
  have hanswers : ∀ name, (Event.apply (.answered result) s).answers name ↔ result.nonce = name :=
    fun name => by simp [Station.answers, Event.apply, MailboxWrite.apply]
  refine ⟨h.single, h.heard, fun name hn => ?_, fun name hn hack other ho => ?_⟩
  · rw [hanswers, acknowledged_answered, or_iff_left_iff_imp]
    exact fun hack => h.attends name hn hack _ hlisted
  · by_cases hold : acknowledged past name = true
    · exact h.attends name hn hold other ho
    · have hname := (acknowledged_answered.mp hack).resolve_right hold
      obtain ⟨a, ha⟩ := List.length_eq_one_iff.mp
        (h.heard.antisymm (List.length_pos_of_mem hlisted))
      have ho' : other ∈ s.listed := ho
      rw [ha, List.mem_singleton] at hlisted ho'
      rw [ho', ← hname, hlisted]

theorem Orderly.supervise {act : SupervisorAct} (h : Orderly past s) (he : act.event s = some e) :
    Orderly ((e, s) :: past) (e.apply s) := by
  obtain ⟨names, rfl, hsub, hlen⟩ | ⟨result, rfl, hlisted⟩ := SupervisorAct.event_cases he
  · exact ⟨h.single, hlen.trans h.single, h.answered,
      fun name hn _ other ho => h.eq_of_mem hn (hsub other ho)⟩
  · exact h.acknowledge hlisted

/-- An acknowledgement does not take one back. -/
theorem SupervisorAct.acknowledged_mono {act : SupervisorAct} (he : act.event s = some e)
    {name : String} (h : acknowledged past name = true) :
    acknowledged ((e, s) :: past) name = true := by
  obtain ⟨names, rfl, -⟩ | ⟨result, rfl, -⟩ := SupervisorAct.event_cases he
  · exact h
  · exact acknowledged_answered.mpr (.inr h)

/-- Between two calls. -/
structure Resting (past : Past Station Event) (s : Station) : Prop extends Orderly past s where
  settled : s.Settled

/-- The result has been read: the directory it was for, if any, is the one that
was acknowledged. -/
structure Window (removing : Option String) (past : Past Station Event) (s : Station) : Prop
    extends Resting past s where
  reads : reaping past = some removing
  only : ∀ name ∈ s.names, acknowledged past name = true ↔ removing = some name

/-- What was acknowledged is gone. -/
structure Cleared (removing : Option String) (past : Past Station Event) (s : Station) : Prop
    extends Window removing past s where
  gone : ∀ name ∈ s.names, removing ≠ some name

/-- The queue has been found empty. -/
structure Empty (past : Past Station Event) (s : Station) : Prop extends Orderly past s where
  empty : s.shared.incoming = []

/-- The call stages under its nonce. -/
structure Staging (nonce : String) (past : Past Station Event) (s : Station) : Prop
    extends Orderly past s where
  own : ∀ name ∈ s.names, name = nonce

/-- The call has published under its nonce. -/
structure Published (nonce : String) (past : Past Station Event) (s : Station) : Prop
    extends Staging nonce past s where
  settled : s.Settled

/-- What stays true whatever the supervisor does. -/
def Stable (A : Past Station Event → Station → Prop) : Prop :=
  ∀ past s act e, SupervisorAct.event act s = some e → A past s → e.Sound past s →
    A ((e, s) :: past) (e.apply s)

/-- Of the queue nothing changes, and an answered request stays answered. -/
theorem Orderly.settled_supervise {act : SupervisorAct} (h : Orderly past s)
    (he : act.event s = some e) (hs : s.Settled) : (e.apply s).Settled := by
  intro entry hentry
  have hold : entry ∈ s.shared.incoming := SupervisorAct.incoming_apply he ▸ hentry
  have hname : entry.1 ∈ s.names := List.mem_map_of_mem hold
  refine (hs entry hold).imp_right fun ha => ?_
  have hack : acknowledged past entry.1 = true := (h.answered _ hname).mpr ha
  have hname' : entry.1 ∈ (e.apply s).names := SupervisorAct.names_apply he ▸ hname
  exact ((h.supervise he).answered _ hname').mp (SupervisorAct.acknowledged_mono he hack)

theorem stable_staging (nonce : String) : Stable (Staging nonce) := fun _ _ _ _ he h _ =>
  ⟨h.toOrderly.supervise he, fun name hn => h.own name (SupervisorAct.names_apply he ▸ hn)⟩

theorem stable_published (nonce : String) : Stable (Published nonce) :=
  fun past s act e he h hsound =>
    ⟨stable_staging nonce past s act e he h.toStaging hsound,
      h.toOrderly.settled_supervise he h.settled⟩

/-- The result is read, or counts as none. -/
theorem Resting.sawResult (h : Resting past s) {found : Option RequestResult}
    (hfound : found = none ∨ found = s.shared.result)
    (hsound : Event.Sound past s (.sawResult found)) :
    Window (found.map RequestResult.nonce) ((.sawResult found, s) :: past) s := by
  refine ⟨⟨h.toOrderly.plain (e := .sawResult found) trivial, h.settled⟩, rfl, fun name hn => ?_⟩
  show acknowledged past name = true ↔ _
  rw [h.answered name hn]
  cases found with
  | none =>
    have hnone : ¬ s.answers name := hsound name hn
    simp [hnone]
  | some result =>
    have hresult : some result = s.shared.result := hfound.resolve_left (by simp)
    simp [Station.answers, ← hresult]

/-- The directory being removed loses files: it is the one acknowledged. -/
theorem Window.stripped {nonce : String} (h : Window (some nonce) past s) (kept : Remnant) :
    Window (some nonce) ((.stripped nonce kept, s) :: past)
      (Event.apply (.stripped nonce kept) s) := by
  have hplain : (Event.stripped nonce kept).Plain := trivial
  refine ⟨⟨h.toOrderly.plain hplain, ?_⟩, h.reads, fun name hn => ?_⟩
  · intro entry hentry
    obtain ⟨old, hold, rfl⟩ := List.mem_map.mp hentry
    show (if old.1 = nonce then (old.1, kept.of old.2) else old).2.ready = true ∨
      s.answers (if old.1 = nonce then (old.1, kept.of old.2) else old).1
    split
    · next hname =>
      have hmem : nonce ∈ s.names := hname ▸ List.mem_map_of_mem hold
      refine .inr ?_
      show s.answers old.1
      rw [hname]
      exact (h.answered nonce hmem).mp ((h.only nonce hmem).mpr rfl)
    · exact h.settled old hold
  · rw [(hplain.alike s).names] at hn
    exact h.only name hn

theorem Window.removedDir {nonce : String} (h : Window (some nonce) past s) :
    Cleared (some nonce) ((.removedDir nonce, s) :: past) (Event.apply (.removedDir nonce) s) := by
  have hold : ∀ entry ∈ (Event.apply (.removedDir nonce) s).shared.incoming,
      entry ∈ s.shared.incoming := fun entry hentry => List.mem_of_mem_filter hentry
  refine ⟨⟨⟨h.toOrderly.removedDir nonce, fun entry hentry => h.settled entry (hold entry hentry)⟩,
    h.reads, fun name hn => ?_⟩, fun name hn hname => ?_⟩
  · obtain ⟨entry, hentry, rfl⟩ := List.mem_map.mp hn
    exact h.only entry.1 (List.mem_map_of_mem (hold entry hentry))
  · cases hname
    exact s.not_mem_names_removedDir nonce hn

theorem Cleared.unanswered {removing : Option String} (h : Cleared removing past s) :
    ∀ name ∈ s.names, acknowledged past name = false := by
  intro name hn
  rw [← Bool.not_eq_true, h.only name hn]
  exact h.gone name hn

/-- Where nothing is acknowledged, everything is published. -/
theorem Cleared.ready {removing : Option String} (h : Cleared removing past s) :
    ∀ entry ∈ s.shared.incoming, entry.2.ready = true := by
  intro entry hentry
  have hname : entry.1 ∈ s.names := List.mem_map_of_mem hentry
  refine (h.settled entry hentry).resolve_right fun ha => ?_
  have hack := (h.answered _ hname).mpr ha
  rw [h.unanswered _ hname] at hack
  cases hack

theorem Cleared.removedResult {removing : Option String} (h : Cleared removing past s) :
    Cleared removing ((.removedResult, s) :: past) (Event.apply .removedResult s) := by
  have hnone : ∀ name, ¬ (Event.apply .removedResult s).answers name := fun name ha => by
    obtain ⟨result, hresult, -⟩ := ha
    cases hresult
  refine ⟨⟨⟨⟨h.single, h.heard, fun name hn => ?_, h.attends⟩, fun entry hentry => ?_⟩,
    h.reads, h.only⟩, h.gone⟩
  · refine iff_of_false ?_ (hnone name)
    show ¬ acknowledged past name = true
    rw [h.unanswered name hn]
    exact Bool.false_ne_true
  · exact .inl (h.ready entry hentry)

/-- A directory is made in an empty queue. -/
theorem Empty.madeDir (h : Empty past s) {nonce : String} (hfree : ¬ s.answers nonce) :
    Staging nonce ((.madeDir nonce, s) :: past) (Event.apply (.madeDir nonce) s) := by
  have hnames : (Event.apply (.madeDir nonce) s).names = [nonce] := by
    show ((nonce, _) :: s.shared.incoming).map Prod.fst = [nonce]
    rw [h.empty]
    rfl
  have hfresh : acknowledged ((.madeDir nonce, s) :: past) nonce = false := by
    show (nonce != nonce && acknowledged past nonce) = false
    rw [bne_self_eq_false, Bool.false_and]
  have hown : ∀ name ∈ (Event.apply (.madeDir nonce) s).names, name = nonce := by
    rw [hnames]
    exact fun name hn => List.mem_singleton.mp hn
  refine ⟨⟨?_, h.heard, fun name hn => ?_, fun name hn hack => ?_⟩, hown⟩
  · rw [← Station.length_names, hnames]
    rfl
  · rw [hown name hn, hfresh]
    exact iff_of_false Bool.false_ne_true hfree
  · rw [hown name hn, hfresh] at hack
    cases hack

theorem Staging.plain {nonce : String} (h : Staging nonce past s) (he : e.Plain) :
    Staging nonce ((e, s) :: past) (e.apply s) :=
  ⟨h.toOrderly.plain he, fun name hn => h.own name ((he.alike s).names ▸ hn)⟩

/-- The directory of the call is published. -/
theorem Staging.published {ready : ReadyRequest} (h : Staging ready.nonce past s) :
    Published ready.nonce ((.published ready, s) :: past) (Event.apply (.published ready) s) := by
  refine ⟨h.plain (e := .published ready) trivial, fun entry hentry => .inl ?_⟩
  obtain ⟨old, hold, rfl⟩ := List.mem_map.mp hentry
  rw [if_pos (h.own old.1 (List.mem_map_of_mem hold))]

theorem Staging.removedDir {nonce : String} (h : Staging nonce past s) :
    Resting ((.removedDir nonce, s) :: past) (Event.apply (.removedDir nonce) s) := by
  refine ⟨h.toOrderly.removedDir nonce, fun entry hentry => ?_⟩
  have hname := h.own entry.1 (List.mem_map_of_mem (List.mem_of_mem_filter hentry))
  have hmem : entry.1 ∈ (Event.apply (.removedDir nonce) s).names := List.mem_map_of_mem hentry
  rw [hname] at hmem
  exact absurd hmem (s.not_mem_names_removedDir nonce)

/-! ## Along a call -/

/-- **The assertion of a phase**: if the history so far keeps away from what it
must, the phase holds and every refusal was right. -/
def Reaches (A : Past Station Event → Station → Prop) (w : World) : Prop :=
  Throughout (fun past s e => e.Sound past s) w.trace →
    A w.trace w.station ∧ Throughout (fun past s e => e.RefusesRightly past s) w.trace

variable {A B : Past Station Event → Station → Prop} {w : World}

theorem Reaches.mono (h : Reaches A w) (hAB : ∀ past s, A past s → B past s) : Reaches B w :=
  fun hsound => (h hsound).imp_left (hAB _ _)

/-- One event leads from phase to phase. -/
theorem Reaches.happen (h : Reaches A w)
    (hstep : ∀ past s, A past s → e.Sound past s →
      B ((e, s) :: past) (e.apply s) ∧ e.RefusesRightly past s) : Reaches B (w.happen e) := by
  intro hsound
  obtain ⟨he, hsound⟩ := throughout_cons.mp hsound
  obtain ⟨hA, hright⟩ := h hsound
  obtain ⟨hB, hrefuses⟩ := hstep _ _ hA he
  exact ⟨hB, throughout_cons.mpr ⟨hrefuses, hright⟩⟩

/-- An event of the supervisor is no refusal. -/
theorem SupervisorAct.refusesRightly {act : SupervisorAct} (he : act.event s = some e) :
    e.RefusesRightly past s := by
  obtain ⟨names, rfl, -⟩ | ⟨result, rfl, -⟩ := SupervisorAct.event_cases he
  · trivial
  · trivial

theorem Reaches.supervise (hA : Stable A) (h : Reaches A w) (act : SupervisorAct) :
    Reaches A (w.supervise act) := by
  unfold World.supervise
  cases he : act.event w.station with
  | none => exact h
  | some e =>
    intro hsound
    obtain ⟨hs, hsound⟩ := throughout_cons.mp hsound
    obtain ⟨ha, hright⟩ := h hsound
    exact ⟨hA _ _ _ _ he ha hs,
      throughout_cons.mpr ⟨SupervisorAct.refusesRightly he, hright⟩⟩

theorem Stable.undisturbed (hA : Stable A) : Undisturbed (Reaches A) where
  turns := fun _ h => h
  acts := fun act h => h.supervise hA act

/-- An event that no phase change goes with. -/
theorem perform_keeps (hA : Stable A)
    (hstep : ∀ past s, A past s → e.Sound past s →
      A ((e, s) :: past) (e.apply s) ∧ e.RefusesRightly past s) :
    (perform e).Keeps (Reaches A) :=
  (hA.undisturbed.step).bind fun _ => Prog.keeps_modify fun _ h => h.happen hstep

/-- An event with which the phase changes, if it takes place. -/
theorem perform_leads (hA : Stable A) (h : Reaches A w)
    (hstep : ∀ past s, A past s → e.Sound past s →
      B ((e, s) :: past) (e.apply s) ∧ e.RefusesRightly past s) :
    (perform e).Leads w (fun _ => Reaches B) (fun _ => Reaches A) (Reaches A) :=
  Prog.leads_bind.mpr ((hA.undisturbed.step w h).imp fun _ _ h' =>
    Prog.leads_modify.mpr (h'.happen hstep))

/-! ### Verification and the consumed request -/

section Programs

variable (P : Platform) (W : Web)

/-- The last steps of staging publish the request. -/
theorem publish_leads {ready : Nat → ReadyRequest} {nonce : String}
    (hready : ∀ now, (ready now).nonce = nonce) (h : Reaches (Staging nonce) w) :
    (do
      let now ← unixNow
      perform (.published (ready now))
      discard step
      discard step : Act Unit).Leads w (fun _ => Reaches (Published nonce))
        (fun _ => Reaches (Staging nonce)) (Reaches (Staging nonce)) := by
  have hA : Stable (Published nonce) := stable_published nonce
  have hstaging : ∀ w', Reaches (Published nonce) w' → Reaches (Staging nonce) w' :=
    fun _ h => h.mono fun _ _ hp => hp.toStaging
  refine Prog.leads_bind.mpr (((stable_staging nonce).undisturbed.unixNow w h).imp fun now w₁ h₁ => ?_)
  have hpublish : ∀ past s, Staging nonce past s → Event.Sound past s (.published (ready now)) →
      Published nonce ((.published (ready now), s) :: past) (Event.apply (.published (ready now)) s)
        ∧ Event.RefusesRightly past s (.published (ready now)) := by
    intro past s hs _
    rw [← hready now] at hs ⊢
    exact ⟨hs.published, trivial⟩
  refine Prog.leads_bind.mpr ((perform_leads (stable_staging nonce) h₁ hpublish).imp
    fun _ w₂ h₂ => ?_)
  · exact (((hA.undisturbed.discards _).bind fun _ => hA.undisturbed.discards _) w₂ h₂).mono
      (fun _ _ h => h) (fun _ => hstaging) hstaging

end Programs

/-! ## An interrupted download, and a queue in use -/

section Interrupted

open Sample (platform)

def web : Web where
  parse text := .ok text
  join base path := .ok (base ++ path)
  origin url := String.ofList (url.toList.take 14)

/-- The server sends the package of the newer release. -/
def idle : Turn where
  acts := []
  now := 1000
  fate := .done
  detail := ""
  random := Vector.replicate 16 1
  response := ⟨"https://server/package", 200, "200 OK", some 1, [Sample.newer.artifact]⟩
  kept := ⟨false, false, false⟩

def offer : Offer where
  config := Sample.config none
  serverUrl := "https://server"
  signed := ⟨Sample.newer.manifest, Sample.newer.signature⟩
  url := "/package"

/-- The process is killed while it downloads, and started again. -/
def interrupted : QueueRun where
  ledger := none
  calls := [(offer, List.replicate 10 idle), (offer, List.replicate 40 idle)]

def Event.refuses : Event → Bool
  | .refused => true
  | _ => false

end Interrupted

end Lariska.Endpoint
