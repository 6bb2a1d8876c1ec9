import Mathlib.Tactic

/-!
# A file that is replaced as a whole

A file that must never be seen half written is written under another name,
synced, and renamed to its own; then the directory is synced. Between these
steps the process can be killed, and the power can be lost.

What a directory shows while the system runs, and what is left of it once the
power is lost, are two things: the names may show what they last showed or what
they showed when the directory was synced last, and the bytes of a file that was
not synced may be any. `Replaced` keeps both for one name, with the temporary
files beside it, and the operations below are those of the protocol. A renamed
file that was synced before survives whatever happens (`Whole.lose`), and one
whose directory was synced since is what the name shows from then on
(`Settled.lose`).

Nothing here depends on what the files contain.
-/

/-- A file: what is read of it, and whether that is on disk. -/
structure DiskFile (β : Type) where
  content : β
  synced : Bool
deriving DecidableEq

/-- What is left of a file once the power is lost: any bytes, if its own were
not on disk. -/
def DiskFile.lose {β : Type} (f : DiskFile β) (torn : β) : DiskFile β :=
  if f.synced then f else ⟨torn, true⟩

/-- The file at one name, with the temporary ones beside it. -/
structure Replaced (κ β : Type) where
  /-- What the name shows. -/
  shown : Option (DiskFile β)
  /-- What it showed when the directory was synced last. -/
  stored : Option (DiskFile β)
  temps : κ → Option (DiskFile β)

namespace Replaced

variable {κ β : Type} [DecidableEq κ]

def create (s : Replaced κ β) (k : κ) (empty : β) : Replaced κ β :=
  { s with temps := Function.update s.temps k (some ⟨empty, false⟩) }

/-- A temporary file changes. -/
def alter (s : Replaced κ β) (k : κ) (f : DiskFile β → DiskFile β) : Replaced κ β :=
  { s with temps := Function.update s.temps k ((s.temps k).map f) }

/-- The bytes of a temporary file change. -/
def write (s : Replaced κ β) (k : κ) (f : β → β) : Replaced κ β :=
  s.alter k fun t => ⟨f t.content, false⟩

def sync (s : Replaced κ β) (k : κ) : Replaced κ β := s.alter k fun t => ⟨t.content, true⟩

/-- The temporary file takes the name. -/
def rename (s : Replaced κ β) (k : κ) : Replaced κ β :=
  match s.temps k with
  | none => s
  | some t => ⟨some t, s.stored, Function.update s.temps k none⟩

omit [DecidableEq κ] in
/-- The directory is synced. -/
def syncDir (s : Replaced κ β) : Replaced κ β := { s with stored := s.shown }

omit [DecidableEq κ] in
/-- The power is lost: what the name shows is `kept` or not, and of the
temporary files anything may be left. -/
def lose (s : Replaced κ β) (kept : Bool) (torn : β) (temps : κ → Option (DiskFile β)) :
    Replaced κ β :=
  let left := (if kept then s.shown else s.stored).map (·.lose torn)
  ⟨left, left, temps⟩

variable {s : Replaced κ β} {k : κ}

@[simp] theorem create_shown (empty : β) : (s.create k empty).shown = s.shown := rfl
@[simp] theorem create_stored (empty : β) : (s.create k empty).stored = s.stored := rfl
@[simp] theorem write_shown (f : β → β) : (s.write k f).shown = s.shown := rfl
@[simp] theorem write_stored (f : β → β) : (s.write k f).stored = s.stored := rfl
@[simp] theorem sync_shown : (s.sync k).shown = s.shown := rfl
@[simp] theorem sync_stored : (s.sync k).stored = s.stored := rfl

omit [DecidableEq κ] in
@[simp] theorem syncDir_shown : s.syncDir.shown = s.shown := rfl

omit [DecidableEq κ] in
@[simp] theorem syncDir_stored : s.syncDir.stored = s.shown := rfl

@[simp] theorem create_temps (empty : β) : (s.create k empty).temps k = some ⟨empty, false⟩ :=
  Function.update_self _ _ _

theorem alter_temps {t : DiskFile β} (h : s.temps k = some t) (f : DiskFile β → DiskFile β) :
    (s.alter k f).temps k = some (f t) := by
  show Function.update s.temps k ((s.temps k).map f) k = _
  rw [Function.update_self, h, Option.map_some]

theorem rename_eq {t : DiskFile β} (h : s.temps k = some t) :
    s.rename k = ⟨some t, s.stored, Function.update s.temps k none⟩ := by
  unfold rename
  rw [h]

/-! ## What power losses leave -/

omit [DecidableEq κ]

/-- Whatever the name shows, now or once the power is lost, is on disk, and `P`
holds of it. -/
structure Whole (P : β → Prop) (s : Replaced κ β) : Prop where
  shown : ∀ f ∈ s.shown, f.synced = true ∧ P f.content
  stored : ∀ f ∈ s.stored, f.synced = true ∧ P f.content

/-- What the name shows is what is left once the power is lost. -/
def Settled (s : Replaced κ β) : Prop := s.stored = s.shown

variable {P : β → Prop}

theorem Whole.lose_eq (h : s.Whole P) (kept : Bool) (torn : β)
    (temps : κ → Option (DiskFile β)) :
    (s.lose kept torn temps).shown = if kept then s.shown else s.stored := by
  have hsynced : ∀ f ∈ (if kept then s.shown else s.stored), f.lose torn = f := by
    intro f hf
    have hf' : f.synced = true := by
      cases kept with
      | true => exact (h.shown f hf).1
      | false => exact (h.stored f hf).1
    unfold DiskFile.lose
    rw [if_pos hf']
  show (if kept then s.shown else s.stored).map (·.lose torn) = _
  cases hleft : (if kept then s.shown else s.stored) with
  | none => rfl
  | some f => rw [Option.map_some, hsynced f (hleft ▸ rfl)]

omit [DecidableEq κ] in
theorem lose_stored (kept : Bool) (torn : β) (temps : κ → Option (DiskFile β)) :
    (s.lose kept torn temps).stored = (s.lose kept torn temps).shown := rfl

/-- **A file that was on disk before it took its name is never seen torn.** -/
theorem Whole.lose (h : s.Whole P) (kept : Bool) (torn : β) (temps : κ → Option (DiskFile β)) :
    (s.lose kept torn temps).Whole P := by
  have hshown : ∀ f ∈ (s.lose kept torn temps).shown, f.synced = true ∧ P f.content := by
    rw [h.lose_eq]
    cases kept with
    | true => exact h.shown
    | false => exact h.stored
  exact ⟨hshown, hshown⟩

/-- **A file whose directory was synced since stays.** -/
theorem Settled.lose (hs : s.Settled) (h : s.Whole P) (kept : Bool) (torn : β)
    (temps : κ → Option (DiskFile β)) : (s.lose kept torn temps).shown = s.shown := by
  rw [h.lose_eq]
  cases kept with
  | true => rfl
  | false => exact hs

theorem Whole.imp {s' : Replaced κ β} (h : s.Whole P) (hshown : s'.shown = s.shown)
    (hstored : s'.stored = s.stored) : s'.Whole P :=
  ⟨hshown ▸ h.shown, hstored ▸ h.stored⟩

end Replaced
