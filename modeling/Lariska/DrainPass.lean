import Lariska.SpoolRetention

/-!
# A drain pass

`drain_spool` enumerates the paths once and then goes from one to the next,
while the inventory loop spools and evicts. What it has read so far and what
is still to come are the paths it enumerated, in every state of every run
(`goes_through`). An entry evicted meanwhile is not skipped when the pass comes
to it: the pass ends there. `passes_proceed` says that this is the only thing
that ends a pass early, but for an answer that is not for one snapshot alone.
-/

namespace Lariska

/-! ## What a pass goes through -/

/-- The spool the last pass has enumerated. -/
def enumerated : Past Delivery DeliveryEvent → Option Spool
  | [] => none
  | (.list true, σ) :: _ => some σ.spool
  | _ :: past => enumerated past

/-- The paths that pass has come to, in order. -/
def attempted : Past Delivery DeliveryEvent → List String
  | [] => []
  | (.list true, _) :: _ => []
  | (.read _ _, σ) :: past => attempted past ++ σ.worker.toRead.toList
  | _ :: past => attempted past

/-- The paths still to come in the running pass. -/
def WorkerTask.left : WorkerTask → Option (List String)
  | .idle => none
  | .inspecting _ => none
  | .next paths => some paths
  | .submitting _ paths => some paths
  | .accepted _ paths => some paths
  | .removed _ paths => some paths
  | .stored _ paths => some paths

/-- The pass has come to the first paths it enumerated, and while it runs the
others are left. -/
structure GoesThrough (past : Past Delivery DeliveryEvent) (σ : Delivery) : Prop where
  begun : ∀ s ∈ enumerated past, attempted past <+: s.pendingPaths
  rest : ∀ paths ∈ σ.worker.left, ∃ s ∈ enumerated past, attempted past ++ paths = s.pendingPaths

variable {L : Libraries} {settings : Settings} {past : Past Delivery DeliveryEvent}
variable {σ σ' : Delivery} {e : DeliveryEvent} {init : Delivery → Prop}

/-- Events that belong to no pass, or neither begin one nor come to an entry. -/
def DeliveryEvent.KeepsPlace : DeliveryEvent → Prop
  | .list true | .read _ _ => False
  | _ => True

theorem enumerated_cons (h : e.KeepsPlace) : enumerated ((e, σ) :: past) = enumerated past := by
  cases e with
  | list listed =>
    cases listed with
    | false => rfl
    | true => exact h.elim
  | _ => rfl

theorem attempted_cons (h : e.KeepsPlace) : attempted ((e, σ) :: past) = attempted past := by
  cases e with
  | list listed =>
    cases listed with
    | false => rfl
    | true => exact h.elim
  | read readable moved => exact h.elim
  | _ => rfl

theorem GoesThrough.stays (h : GoesThrough past σ) (he : e.KeepsPlace)
    (hleft : ∀ paths ∈ σ'.worker.left, paths ∈ σ.worker.left) :
    GoesThrough ((e, σ) :: past) σ' := by
  constructor
  · rw [enumerated_cons he, attempted_cons he]
    exact h.begun
  · rw [enumerated_cons he, attempted_cons he]
    exact fun paths hpaths => h.rest paths (hleft paths hpaths)

/-- The pass comes to its next path. -/
theorem GoesThrough.comes {path : String} {paths : List String} {readable : Bool}
    {moved : FileResult} (h : GoesThrough past σ) (hw : σ.worker = .next (path :: paths))
    (hleft : ∀ rest ∈ σ'.worker.left, rest = paths) :
    GoesThrough ((.read readable moved, σ) :: past) σ' := by
  have hattempted : attempted ((.read readable moved, σ) :: past) = attempted past ++ [path] := by
    rw [attempted, hw]
    rfl
  obtain ⟨s, hs, hplan⟩ := h.rest (path :: paths) (by rw [hw]; rfl)
  have hplan' : attempted past ++ [path] ++ paths = s.pendingPaths := by
    rw [List.append_assoc]
    exact hplan
  constructor
  · rw [hattempted]
    intro s' hs'
    rw [show s' = s from Option.some.inj (hs'.symm.trans hs)]
    exact ⟨paths, hplan'⟩
  · rw [hattempted]
    intro rest hrest
    rw [hleft rest hrest]
    exact ⟨s, hs, hplan'⟩

theorem GoesThrough.moves (h : GoesThrough past σ) (hm : Delivery.Moves L settings σ e σ') :
    GoesThrough ((e, σ) :: past) σ' := by
  cases hm with
  | listed hc hw =>
    constructor
    · intro s hs
      exact List.nil_prefix
    · intro paths hpaths
      cases hpaths
      exact ⟨σ.spool, rfl, rfl⟩
  | read hw hf ht => exact h.comes hw fun rest hrest => (Option.some.inj hrest).symm
  | skipped hw hr => exact h.comes hw fun rest hrest => (Option.some.inj hrest).symm
  | notRead hw hr => exact h.comes hw fun rest hrest => (nomatch hrest)
  | start hc => exact h.stays trivial fun _ hp => (nomatch hp)
  | inspected hc hw hf ht => exact h.stays trivial fun _ hp => (nomatch hp)
  | passedOver hc hw hr => exact h.stays trivial fun _ hp => (nomatch hp)
  | inspectedAll hc hw => exact h.stays trivial fun _ hp => (nomatch hp)
  | due hc hi hw => exact h.stays trivial fun _ hp => hp
  | suppressed hc hi hs => exact h.stays trivial fun _ hp => hp
  | tooLarge hc hi hj => exact h.stays trivial fun _ hp => hp
  | notWritten hc hi hs hj hwritten => exact h.stays trivial fun _ hp => hp
  | enqueued hc hi hs hj hwritten => exact h.stays trivial fun _ hp => hp
  | killedSpooling hc hi hs hj => exact h.stays trivial fun _ hp => (nomatch hp)
  | notListed hc hw => exact h.stays trivial fun _ hp => (nomatch hp)
  | accepted hw => exact h.stays trivial fun _ hp => by rw [hw]; exact hp
  | lost hw => exact h.stays trivial fun _ hp => hp
  | @rejected snapshot paths why moved hw =>
    refine h.stays trivial fun rest hrest => ?_
    rw [hw]
    change rest ∈ (if moved = .done then WorkerTask.next paths else .idle).left at hrest
    split at hrest
    · exact hrest
    · cases hrest
  | refused hw => exact h.stays trivial fun _ hp => (nomatch hp)
  | @removed snapshot paths result hw =>
    refine h.stays trivial fun rest hrest => ?_
    rw [hw]
    change rest ∈ (if result = .done then WorkerTask.removed _ paths else .idle).left at hrest
    split at hrest
    · exact hrest
    · cases hrest
  | stored hw => exact h.stays trivial fun _ hp => by rw [hw]; exact hp
  | recorded hc hw => exact h.stays trivial fun _ hp => by rw [hw]; exact hp
  | cleared hc hw => exact h.stays trivial fun _ hp => (nomatch hp)
  | crash => exact h.stays trivial fun _ hp => (nomatch hp)

/-- **A pass goes through the paths it enumerated, in their order**, whatever
happens meanwhile. -/
theorem goes_through (h : History init (fun _ σ e σ' => σ.step L settings e = some σ') past σ)
    (hinit : ∀ σ, init σ → σ.worker = .idle) : GoesThrough past σ :=
  h.invariant' (I := GoesThrough)
    (fun σ hσ => ⟨fun _ hs => (nomatch hs), fun _ hp => by rw [hinit σ hσ] at hp; cases hp⟩)
    fun _ _ _ _ hI hstep => hI.moves (Delivery.step_moves hstep)


/-! ## Evictions during a pass -/

/-- The good reasons for a pass to end: the server has no answer for this
snapshot, or the pass has come to every path it enumerated. -/
def DeliveryEvent.MayEnd (past : Past Delivery DeliveryEvent) : DeliveryEvent → Prop
  | .answer .refused => True
  | .clear _ => ∀ s ∈ enumerated past, attempted past = s.pendingPaths
  | _ => False

/-- The step ends a pass for such a reason only. -/
def DeliveryEvent.Proceeds (L : Libraries) (settings : Settings)
    (past : Past Delivery DeliveryEvent) (σ : Delivery) (e : DeliveryEvent) : Prop :=
  ∀ σ' ∈ σ.step L settings e, σ.worker.left ≠ none → σ'.worker.left = none → e.MayEnd past

/-- **What a step must keep away from**: the pass comes to an entry that is
gone. -/
def DeliveryEvent.Present (σ : Delivery) : DeliveryEvent → Prop
  | .read _ _ => ∀ path ∈ σ.worker.toRead, σ.spool.find path ≠ none
  | _ => True

/-- The process does not die. -/
def DeliveryEvent.Lives : DeliveryEvent → Prop
  | .crash => False
  | .killedSpooling _ _ _ => False
  | _ => True

instance : Decidable (e.Proceeds L settings past σ) := by
  have : Decidable (e.MayEnd past) := by
    unfold DeliveryEvent.MayEnd
    rcases e with ⟨⟩
    case answer reply => rcases reply with ⟨⟩ <;> infer_instance
    all_goals infer_instance
  unfold DeliveryEvent.Proceeds
  infer_instance

instance : Decidable (e.Present σ) := by
  unfold DeliveryEvent.Present
  rcases e with ⟨⟩ <;> infer_instance

instance : Decidable e.Lives := by
  unfold DeliveryEvent.Lives
  rcases e with ⟨⟩ <;> infer_instance

/-- A pass runs in a client. -/
theorem Delivery.Moves.runs (hm : Delivery.Moves L settings σ e σ')
    (h : σ.worker.left ≠ none → σ.client ≠ none) : σ'.worker.left ≠ none → σ'.client ≠ none := by
  cases hm with
  | start | inspected | passedOver | inspectedAll | killedSpooling | notListed | notRead | refused
    | cleared | crash => exact fun hn => absurd rfl hn
  | due hc hi hw => exact h
  | suppressed hc hi hs => exact h
  | tooLarge hc hi hj => exact h
  | notWritten hc hi hs hj hwritten => exact h
  | enqueued | recorded => exact fun _ => Option.some_ne_none _
  | listed hc hw => exact fun _ => by rw [hc]; exact Option.some_ne_none _
  | lost hw => exact h
  | read hw | skipped hw | accepted hw | rejected hw | removed hw | stored hw =>
    exact fun _ => h (by rw [hw]; exact Option.some_ne_none _)

theorem runs_in_client (h : History init (fun _ σ e σ' => σ.step L settings e = some σ') past σ)
    (hinit : ∀ σ, init σ → σ.worker = .idle) : σ.worker.left ≠ none → σ.client ≠ none :=
  h.invariant' (I := fun _ σ => σ.worker.left ≠ none → σ.client ≠ none)
    (fun σ hσ hn => absurd (by rw [hinit σ hσ]; rfl) hn)
    fun _ _ _ _ hI hstep => (Delivery.step_moves hstep).runs hI

/-- A pass that finds its entries proceeds. -/
theorem GoesThrough.proceeds (h : GoesThrough past σ)
    (hruns : σ.worker.left ≠ none → σ.client ≠ none) (hfault : e.Faultless) (hlives : e.Lives)
    (hpresent : e.Present σ) : e.Proceeds L settings past σ := by
  intro σ' hstep hpass hend
  have hm : Delivery.Moves L settings σ e σ' := Delivery.step_moves hstep
  cases hm with
  | killedSpooling | crash => exact hlives.elim
  | refused hw => trivial
  | cleared hc hw =>
    intro s hs
    obtain ⟨s', hs', hplan⟩ := h.rest [] (by rw [hw]; rfl)
    rw [List.append_nil] at hplan
    rw [hplan, Option.some.inj (hs'.symm.trans hs)]
  | notRead hw hr =>
    obtain ⟨rfl, rfl⟩ := hfault
    exact absurd (Spool.find_of_readPending_error hr) (hpresent _ (by rw [hw]; rfl))
  | start hc => exact absurd hc (hruns hpass)
  | inspected hc hw | passedOver hc hw | inspectedAll hc hw | notListed hc hw =>
    exact absurd (by rw [hw]; rfl) hpass
  | due hc hi hw => exact absurd hend hpass
  | suppressed hc hi hs => exact absurd hend hpass
  | tooLarge hc hi hj => exact absurd hend hpass
  | notWritten hc hi hs hj hwritten => exact absurd hend hpass
  | enqueued hc hi hs hj hwritten => exact absurd hend hpass
  | lost hw => exact absurd hend hpass
  | rejected hw =>
    cases hfault
    cases hend
  | removed hw =>
    cases hfault
    cases hend
  | listed | read | skipped | accepted | stored | recorded => cases hend

/-- A pass that comes to an entry that is gone ends there. -/
theorem present_of_proceeds (h : e.Proceeds L settings past σ) {σ' : Delivery}
    (hstep : σ.step L settings e = some σ') : e.Present σ := by
  cases e with
  | read readable moved =>
    intro path hpath hgone
    have hm : Delivery.Moves L settings σ (.read readable moved) σ' := Delivery.step_moves hstep
    cases hm with
    | read hw hf ht =>
      rw [hw] at hpath
      cases hpath
      rw [hf] at hgone
      cases hgone
    | skipped hw hr =>
      rw [hw] at hpath
      cases hpath
      rw [Spool.readPending_of_gone hgone] at hr
      cases hr
    | notRead hw hr => exact h _ hstep (by rw [hw]; exact Option.some_ne_none _) rfl
  | _ => trivial

/-- **When evictions let a pass go on.** In every interleaving without faults, a
pass ends only with an answer that is not for one snapshot alone, or after it
has come to every entry it enumerated, if and only if it never comes to an
entry that has been evicted. -/
theorem passes_proceed
    (h : History (fun σ => σ.worker = .idle) (fun _ σ e σ' => σ.step L settings e = some σ') past σ)
    (hfault : Throughout (fun _ _ e => e.Faultless ∧ e.Lives) past) :
    Throughout (fun past σ e => e.Proceeds L settings past σ) past ↔
      Throughout (fun _ σ e => DeliveryEvent.Present σ e) past := by
  constructor
  · exact fun hproceeds => h.throughout (I := fun _ _ => True) hproceeds (fun _ _ _ _ => trivial)
      fun _ _ _ _ _ hp hstep => present_of_proceeds hp hstep
  · exact fun hpresent => h.throughout
      (I := fun past σ => GoesThrough past σ ∧ (σ.worker.left ≠ none → σ.client ≠ none))
      (hfault.and hpresent)
      (fun _ _ h _ => ⟨goes_through h fun _ h => h, runs_in_client h fun _ h => h⟩)
      fun _ _ _ _ hI hC _ => hI.1.proceeds hI.2 hC.1.1 hC.1.2 hC.2


namespace Sample

def first : InventorySnapshot := snapshot "snap-1" "host-1"
def second : InventorySnapshot := snapshot "snap-2" "host-2"
def third : InventorySnapshot := snapshot "snap-3" "host-3"
def fourth : InventorySnapshot := snapshot "snap-4" "host-4"

def digestB : String := "bbbbbbbbbbbbbbbbbbbbbbbbbbbbbbbbbbbbbbbbbbbbbbbbbbbbbbbbbbbbbbbb"
def digestC : String := "cccccccccccccccccccccccccccccccccccccccccccccccccccccccccccccccc"
def digestD : String := "dddddddddddddddddddddddddddddddddddddddddddddddddddddddddddddddd"

/-- Libraries that carry four states of a host. -/
def fourStates : Libraries :=
  carrying [(first, digestA), (second, digestB), (third, digestC), (fourth, digestD)]

theorem fresh_idle : (fun σ : Delivery => σ.worker = .idle) fresh := rfl

/-- Room for two entries. -/
def brief : Settings := ⟨2, 86400⟩

/-- A snapshot is taken and spooled at a time. -/
def spools (s : InventorySnapshot) (time : Nat) : List DeliveryEvent :=
  [.due s time, .enqueue ⟨time, 0, .done, none⟩]

/-- The server accepts the entry at hand. -/
def accepts (time : Nat) : List DeliveryEvent :=
  [.answer .accepted, .remove .done, .store time .done, .record]

/-- While the first of two entries is with the server, a third is spooled. -/
def evicting : List DeliveryEvent :=
  [.start true true true, .inspect true .done] ++ spools first 100 ++ spools second 200
    ++ [.list true, .read true .done] ++ spools third 300

/-- ... and a fourth, so that the second is gone as well. -/
def evictedNext : Past Delivery DeliveryEvent × Delivery :=
  deliver fourStates brief fresh (evicting ++ spools fourth 400 ++ accepts 500
    ++ [.read true .done])

/-- ... but no fourth. -/
def evictedBehind : Past Delivery DeliveryEvent × Delivery :=
  deliver fourStates brief fresh (evicting ++ accepts 500 ++ [.read true .done] ++ accepts 600
    ++ [.clear true])

end Sample

open Sample in
/-- **An eviction makes the pass fail.** -/
theorem eviction_ends_pass :
    History (fun σ => σ.worker = .idle) (fun _ σ e σ' => σ.step fourStates brief e = some σ')
      evictedNext.1 evictedNext.2 ∧
      Throughout (fun _ _ e => e.Faultless ∧ e.Lives) evictedNext.1 ∧
      ¬ Throughout (fun past σ e => e.Proceeds fourStates brief past σ) evictedNext.1 :=
  ⟨deliver_history fresh_idle _ _ _, by decide +kernel, by decide +kernel⟩

open Sample in
theorem evictedBehind_proceeds :
    evictedBehind.1.length = 20 ∧
      Throughout (fun past σ e => e.Proceeds fourStates brief past σ) evictedBehind.1 :=
  ⟨by decide +kernel, (passes_proceed (deliver_history fresh_idle _ _ _) (by decide +kernel)).mpr
    (by decide +kernel)⟩

end Lariska
