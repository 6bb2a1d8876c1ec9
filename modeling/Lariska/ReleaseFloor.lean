import Lariska.SupervisorRuns

/-!
# The anti-rollback floor

The floor is a version and a sequence, raised by two operations and lowered
by none. Every release that was seeded or recorded healthy lies under it from
then on, so a release that passes it is at least as new, in both respects, as
all of them; only the emergency override admits an older one.
-/

namespace Lariska

variable {P : Platform} {Configs : Config → Prop} {past : Past Host Event} {h : Host} {e : Event}

/-- **No step lowers the floor.** -/
theorem Permitted.floorLe (he : Permitted P Configs past h e) :
    (h.ledger P).FloorLe P ((e.apply h).ledger P) := by
  rw [Event.ledger_apply]
  cases he with
  | commit _ rule => exact UpdateLedger.SameFloor.le ⟨rfl, rfl⟩
  | arm rule =>
    obtain ⟨startedAt, deadline, rfl⟩ := rule.ledger
    exact UpdateLedger.SameFloor.le ⟨rfl, rfl⟩
  | promote _ rule => exact rule.raised
  | abandon _ rule => exact rule.floor.le
  | raise rule => exact rule.raised
  | _ => exact UpdateLedger.FloorLe.refl _

/-- The release an event establishes: one that is seeded or recorded
healthy. -/
def Event.establishes : Event → Option (String × Nat)
  | .wroteLedger (.raise m) _ => some (m.version, m.sequence)
  | .wroteJournal (.activate r) _ => some (r.manifest.version, r.manifest.sequence)
  | .wroteLedger (.record _ r) _ =>
    if r.outcome = "healthy" then some (r.version, r.sequence) else none
  | _ => none

/-- The releases established so far. -/
def established (past : Past Host Event) : List (String × Nat) :=
  past.filterMap fun x => x.1.establishes

/-- A step that establishes a release leaves the floor at it or above. -/
theorem Permitted.covers (he : Permitted P Configs past h e) {version : String} {sequence : Nat}
    (hest : e.establishes = some (version, sequence)) :
    ((e.apply h).ledger P).Covers P version sequence := by
  rw [Event.ledger_apply]
  cases he with
  | activate rule =>
    cases hest
    exact rule.covered
  | @promote config p r l _ rule =>
    have hr : (r.version, r.sequence) = (version, sequence) := by
      simpa [Event.establishes, rule.outcome] using hest
    have hreceipt := rule.receipt
    cases hr
    have hv : r.version = p.version := congrArg ConsumedRequest.version hreceipt
    have hs : r.sequence = p.sequence := congrArg ConsumedRequest.sequence hreceipt
    rw [hv, hs]
    exact rule.covered
  | abandon _ rule => simp [Event.establishes, rule.outcome] at hest
  | raise rule =>
    cases hest
    exact rule.covered
  | _ => exact absurd hest (by simp [Event.establishes])

/-- **The floor has reached every release established so far.** -/
theorem covers_established (hs : Supervised P Configs past h) :
    ∀ x ∈ established past, (h.ledger P).Covers P x.1 x.2 := by
  refine hs.invariant' (I := fun past h => ∀ x ∈ established past,
    (h.ledger P).Covers P x.1 x.2) (fun _ _ x hx => absurd hx (by simp [established])) ?_
  rintro past h e _ ih ⟨he, rfl⟩ x hx
  have hcons : established ((e, h) :: past) = e.establishes.toList ++ established past := by
    cases hest : e.establishes <;> simp [established, hest]
  rw [hcons, List.mem_append] at hx
  rcases hx with hx | hx
  · exact he.covers (Option.mem_toList.mp hx)
  · exact he.floorLe.covers (ih x hx)

/-- The release is at least as new, by version and by sequence. -/
def ReleaseManifest.AtLeast (P : Platform) (m : ReleaseManifest) (version : String)
    (sequence : Nat) : Prop :=
  ∃ a b, P.semver version = .ok a ∧ P.semver m.version = .ok b ∧ a ≤ b ∧ sequence ≤ m.sequence

/-- What passes a floor is at least as new as what the floor has reached. -/
theorem UpdateLedger.Clears.atLeast {l : UpdateLedger} {m : ReleaseManifest} {version : String}
    {sequence : Nat} (hm : l.Clears P m.version m.sequence)
    (hx : l.Covers P version sequence) : m.AtLeast P version sequence := by
  obtain ⟨floor, candidate, hf, hc, hle, hs⟩ := hm
  obtain ⟨floor', established, hf', he, hle', hs'⟩ := hx
  cases hf.symm.trans hf'
  exact ⟨established, candidate, he, hc, hle'.trans hle, hs'.trans hs⟩

/-- A forward installation without the override is of a release at least as
new as every established one. -/
def Event.StaysAbove (P : Platform) (past : Past Host Event) : Event → Prop
  | .installing ⟨.forward _, config, m, _, _⟩ => config.updates.emergencyVersion ≠ some m.version →
    ∀ x ∈ established past, m.AtLeast P x.1 x.2
  | _ => True

/-- **The floor never falls, and what is installed stays above it.** Over any
run, the version floor – in semantic-version order – and the sequence floor of
a durable state are at least those of every earlier one; and a release handed
to the forward installer, unless its version is exactly the emergency version
in force, is at least as new by version and by sequence as every release
seeded or recorded healthy before. -/
theorem floor_never_falls (P : Platform) (r : Run) :
    (visited (r.past P) (r.host P)).Pairwise
        (fun later earlier => (earlier.ledger P).FloorLe P (later.ledger P)) ∧
      Throughout (fun past _ e => e.StaysAbove P past) (r.past P) := by
  have hs := r.supervised_uses P
  refine ⟨?_, hs.throughout' ?_⟩
  · refine hs.pairwise_visited (r := fun h h' => (h.ledger P).FloorLe P (h'.ledger P))
      (I := fun _ _ => True) (fun h => UpdateLedger.FloorLe.refl _)
      (fun hab hbc => UpdateLedger.FloorLe.trans hab hbc) (fun _ _ _ => trivial) ?_
    rintro past h e _ - ⟨he, rfl⟩
    exact he.floorLe
  · rintro past h e _ hs ⟨he, -⟩
    cases he with
    | @advance config m bytes nonce effective inForce vouched rule =>
      intro hother x hx
      have hclears := rule.admitted.resolve_left fun hadmits => hother (by
        simpa [Config.admits] using hadmits)
      exact hclears.atLeast (covers_established hs x hx)
    | retreat effective inForce vouched rule => trivial
    | _ => trivial

end Lariska
