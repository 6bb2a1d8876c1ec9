import Lariska.DeliverySteps

/-!
# What leaves the spool

A snapshot that waits is to stay where it is until the server has answered
for it, unless the spool runs out of room. `entries_wait` says in which runs
it does, whatever else fails and wherever the process dies: those in which no
attempt to open or read a valid entry fails while the move to quarantine goes
through. `read_pending` does not tell such a failure from a corrupt entry.
-/

namespace Lariska

/-! ## The entries of a queue -/

/-- **The files of a spool are what their names say**: names are distinct, and
an entry that can be read is the only file with a name of its id. -/
structure Spool.Genuine (L : Libraries) (s : Spool) : Prop where
  names : (s.pending.map SpoolFile.name).Nodup
  named : ∀ f ∈ s.pending, ∀ t ∈ f.snapshot L, f.name ∈ entryNames t.snapshotId
  single : ∀ f ∈ s.pending, ∀ t ∈ f.snapshot L, ∀ g ∈ s.pending,
    g.name ∈ entryNames t.snapshotId → g = f

theorem mem_entryNames {id id' : String} : entryName id ∈ entryNames id' ↔ id = id' := by
  rw [entryNames, List.mem_pair, entryName_inj, or_iff_left (entryName_ne_legacyName id id')]

section Genuine

variable {L : Libraries} {s s' : Spool} {f : SpoolFile} {snapshot : InventorySnapshot}

theorem Spool.Genuine.of_sublist (h : s.Genuine L) (hsub : s'.pending.Sublist s.pending) :
    s'.Genuine L :=
  ⟨h.names.sublist (hsub.map _), fun f hf => h.named f (hsub.subset hf),
    fun f hf t ht g hg => h.single f (hsub.subset hf) t ht g (hsub.subset hg)⟩

theorem Spool.Genuine.without (h : s.Genuine L) (names : List String) :
    (s.without names).Genuine L := h.of_sublist List.filter_sublist

/-- A snapshot is written under a name no file has yet. -/
theorem Spool.Genuine.write (h : s.Genuine L) (hL : L.Lossless) (hs : L.RoundTrips snapshot)
    (hjson : snapshot.toCanonicalJson.length ≤ maxSnapshotBytes)
    (hnew : ∀ f ∈ s.pending, f.name ∉ entryNames snapshot.snapshotId) (time place : Nat) :
    (s.write L snapshot time place).Genuine L := by
  have hfile : ∀ t ∈ (entryFile L snapshot time).snapshot L, t = snapshot := by
    intro t ht
    rw [snapshot_entryFile hL hs hjson] at ht
    split at ht
    · exact (Option.some.inj ht).symm
    · cases ht
  refine ⟨Spool.nodup_names_write h.names time place, fun f hf t ht => ?_,
    fun f hf t ht g hg hname => ?_⟩
  · rcases Spool.mem_write.mp hf with rfl | ⟨hf, -⟩
    · rw [hfile t ht]
      exact mem_entryNames.mpr rfl
    · exact h.named f hf t ht
  · rcases Spool.mem_write.mp hf with rfl | ⟨hf, -⟩
    · rw [hfile t ht] at hname
      rcases Spool.mem_write.mp hg with rfl | ⟨hg, -⟩
      · rfl
      · exact absurd hname (hnew g hg)
    · rcases Spool.mem_write.mp hg with rfl | ⟨hg, -⟩
      · have hid : snapshot.snapshotId = t.snapshotId := mem_entryNames.mp hname
        exact absurd (hid ▸ h.named f hf t ht) (hnew f hf)
      · exact h.single f hf t ht g hg hname

end Genuine

/-! ## What may happen to an entry -/

/-- An id neither the spool nor the worker knows. -/
def Delivery.NewId (σ : Delivery) (id : String) : Prop :=
  (∀ f ∈ σ.spool.pending, f.name ∉ entryNames id) ∧ ∀ name ∈ σ.worker.names, name ∉ entryNames id

/-- `enforce_limit` has the entry among those over the limit, once the snapshot
the inventory loop is about to spool is written. -/
def Delivery.Evicts (L : Libraries) (settings : Settings) (σ : Delivery) (modified place : Nat)
    (f : SpoolFile) : Prop :=
  ∃ snapshot ∈ σ.inventory.offered,
    f ∈ (σ.spool.write L snapshot modified place).overLimit settings.maxSpoolEntries

/-- **The reasons for which an entry may leave**: the server has accepted it,
the server has rejected it for good, or it is over the limit. -/
def DeliveryEvent.Releases (L : Libraries) (settings : Settings) (σ : Delivery) (f : SpoolFile)
    (s : InventorySnapshot) : DeliveryEvent → Prop
  | .remove _ => s ∈ σ.server ∧ s ∈ σ.worker.acknowledged
  | .answer (.rejected _ _) => s ∈ σ.worker.inSubmission
  | .enqueue spooling => σ.Evicts L settings spooling.modified spooling.place f
  | .killedSpooling modified place _ => σ.Evicts L settings modified place f
  | _ => False

/-- Whatever entry leaves in the step, leaves for one of these. -/
def DeliveryEvent.Retains (L : Libraries) (settings : Settings) (σ : Delivery)
    (e : DeliveryEvent) : Prop :=
  ∀ σ' ∈ σ.step L settings e, ∀ f ∈ σ.spool.pending, ∀ s ∈ f.snapshot L,
    f ∈ σ'.spool.pending ∨ e.Releases L settings σ f s

/-- A snapshot that is offered goes through JSON as it is, and has an id of its
own. -/
def DeliveryEvent.Proper (L : Libraries) (σ : Delivery) : DeliveryEvent → Prop
  | .due snapshot _ => L.RoundTrips snapshot ∧ σ.NewId snapshot.snapshotId
  | _ => True

/-- The entry to be read is not moved aside for want of reading it. -/
def Delivery.ReadsSafely (L : Libraries) (σ : Delivery) (readable : Bool) (moved : FileResult) :
    Prop :=
  ∀ path ∈ σ.worker.toRead, ∀ f ∈ σ.spool.find path, f.snapshot L ≠ none →
    readable = true ∨ moved.effective = false

/-- **What a step must keep away from**: a valid entry cannot be opened or read,
and is moved aside. -/
def DeliveryEvent.Undisturbed (L : Libraries) (σ : Delivery) : DeliveryEvent → Prop
  | .inspect readable moved => σ.ReadsSafely L readable moved
  | .read readable moved => σ.ReadsSafely L readable moved
  | _ => True

/-- A stopped agent, with whatever is in its state directory. -/
def Delivery.Stopped (L : Libraries) (σ : Delivery) : Prop :=
  σ.spool.Genuine L ∧ σ.client = none ∧ σ.inventory = .idle ∧ σ.worker = .idle

/-! ## The invariant -/

/-- **The worker and the spool agree**: what the worker has read is what the
entry of its name holds, if that is still there, and what is about to be
spooled is new. -/
structure Delivery.Kept (L : Libraries) (σ : Delivery) : Prop where
  genuine : σ.spool.Genuine L
  current : ∀ s ∈ σ.worker.current, ∀ f ∈ σ.spool.pending, f.name ∈ entryNames s.snapshotId →
    ∀ t ∈ f.snapshot L, t = s
  acknowledged : ∀ s ∈ σ.worker.acknowledged, s ∈ σ.server
  offered : ∀ s ∈ σ.inventory.offered, L.RoundTrips s ∧ σ.NewId s.snapshotId

variable {L : Libraries} {settings : Settings} {σ σ' : Delivery} {e : DeliveryEvent} {id : String}

instance : Decidable (σ.NewId id) := by
  unfold Delivery.NewId
  infer_instance

instance : Decidable (e.Proper L σ) := by
  unfold DeliveryEvent.Proper Libraries.RoundTrips
  rcases e with ⟨⟩ <;> infer_instance

instance : Decidable (e.Undisturbed L σ) := by
  unfold DeliveryEvent.Undisturbed Delivery.ReadsSafely
  rcases e with ⟨⟩ <;> infer_instance

instance {f : SpoolFile} {s : InventorySnapshot} : Decidable (e.Releases L settings σ f s) := by
  unfold DeliveryEvent.Releases Delivery.Evicts
  rcases e with ⟨⟩
  case answer reply => rcases reply with ⟨⟩ <;> infer_instance
  all_goals infer_instance

instance : Decidable (e.Retains L settings σ) := by
  unfold DeliveryEvent.Retains
  infer_instance

theorem WorkerTask.acknowledged_current {w : WorkerTask} {s : InventorySnapshot}
    (h : s ∈ w.acknowledged) : s ∈ w.current := by
  cases w <;> simp_all [current, acknowledged]

theorem WorkerTask.mem_names_of_current {w : WorkerTask} {s : InventorySnapshot}
    (h : s ∈ w.current) : entryName s.snapshotId ∈ w.names := by
  cases w <;> simp_all [current, names]

theorem Spool.readPending_sublist (s : Spool) (name : String) (readable : Bool)
    (moved : FileResult) : (s.readPending L name readable moved).2.pending.Sublist s.pending := by
  rcases Spool.readPending_spool (L := L) name readable moved with h | ⟨h, -⟩
  · rw [h]
  · rw [h]
    exact List.filter_sublist

/-! ### Keeping it -/

namespace Delivery.Kept

/-- Whatever takes files away, or leaves them, and lets a task go on with what
it had. -/
theorem shrinks (h : σ.Kept L) (hsub : σ'.spool.pending.Sublist σ.spool.pending)
    (hcurrent : ∀ s ∈ σ'.worker.current, s ∈ σ.worker.current)
    (hnames : ∀ name ∈ σ'.worker.names, name ∈ σ.worker.names)
    (hacknowledged : ∀ s ∈ σ'.worker.acknowledged, s ∈ σ'.server)
    (hoffered : ∀ s ∈ σ'.inventory.offered, s ∈ σ.inventory.offered) : σ'.Kept L where
  genuine := h.genuine.of_sublist hsub
  current s hs f hf := h.current s (hcurrent s hs) f (hsub.subset hf)
  acknowledged := hacknowledged
  offered s hs := by
    obtain ⟨hround, hfiles, hworker⟩ := h.offered s (hoffered s hs)
    exact ⟨hround, fun f hf => hfiles f (hsub.subset hf), fun name hn => hworker name (hnames name hn)⟩

/-- The worker is between two entries. -/
theorem goesOn (h : σ.Kept L) (hsub : σ'.spool.pending.Sublist σ.spool.pending)
    (hcurrent : σ'.worker.current = none)
    (hnames : ∀ name ∈ σ'.worker.names, name ∈ σ.worker.names)
    (hoffered : ∀ s ∈ σ'.inventory.offered, s ∈ σ.inventory.offered) : σ'.Kept L := by
  refine h.shrinks hsub (fun s hs => ?_) hnames (fun s hs => ?_) hoffered
  · rw [hcurrent] at hs
    cases hs
  · have hs := WorkerTask.acknowledged_current hs
    rw [hcurrent] at hs
    cases hs

/-- The worker has no entries left to attend to. -/
theorem rests (h : σ.Kept L) (hsub : σ'.spool.pending.Sublist σ.spool.pending)
    (hcurrent : σ'.worker.current = none) (hnames : σ'.worker.names = [])
    (hoffered : ∀ s ∈ σ'.inventory.offered, s ∈ σ.inventory.offered) : σ'.Kept L := by
  refine h.goesOn hsub hcurrent (fun name hn => ?_) hoffered
  rw [hnames] at hn
  cases hn

/-- The snapshot on offer is written, and perhaps others are evicted. -/
theorem writes {snapshot : InventorySnapshot} {due : Bool} {time place : Nat} (h : σ.Kept L)
    (hL : L.Lossless) (hi : σ.inventory = .deciding snapshot due)
    (hjson : snapshot.toCanonicalJson.length ≤ maxSnapshotBytes)
    (hsub : σ'.spool.pending.Sublist (σ.spool.write L snapshot time place).pending)
    (hworker : σ'.worker = σ.worker ∨ σ'.worker = .idle) (hserver : σ'.server = σ.server)
    (hidle : σ'.inventory = .idle) : σ'.Kept L := by
  obtain ⟨hround, hfiles, hnames⟩ := h.offered snapshot (by rw [hi]; rfl)
  have hcurrent : ∀ s ∈ σ'.worker.current, s ∈ σ.worker.current := by
    rcases hworker with hw | hw <;> rw [hw]
    · exact fun s hs => hs
    · exact fun s hs => nomatch hs
  refine ⟨(h.genuine.write hL hround hjson hfiles time place).of_sublist hsub,
    fun s hs f hf hname t ht => ?_, fun s hs => ?_, fun s hs => ?_⟩
  · rcases Spool.mem_write.mp (hsub.subset hf) with rfl | ⟨hf, -⟩
    · have hid : snapshot.snapshotId = s.snapshotId := mem_entryNames.mp hname
      exact absurd (mem_entryNames.mpr hid.symm)
        (hnames _ (WorkerTask.mem_names_of_current (hcurrent s hs)))
    · exact h.current s (hcurrent s hs) f hf hname t ht
  · rw [hserver]
    rcases hworker with hw | hw <;> rw [hw] at hs
    · exact h.acknowledged s hs
    · cases hs
  · rw [hidle] at hs
    cases hs

/-- **Every step keeps the worker and the spool in agreement.** -/
theorem moves (h : σ.Kept L) (hL : L.Lossless) (hp : e.Proper L σ)
    (hm : Delivery.Moves L settings σ e σ') : σ'.Kept L := by
  cases hm with
  | start => exact h.rests (by rfl) rfl rfl fun _ hs => hs
  | inspected => exact h.rests (by rfl) rfl rfl fun _ hs => hs
  | passedOver => exact h.rests (Spool.readPending_sublist _ _ _ _) rfl rfl fun _ hs => hs
  | inspectedAll => exact h.rests (by rfl) rfl rfl fun _ hs => hs
  | due =>
    refine ⟨h.genuine, h.current, h.acknowledged, fun s hs => ?_⟩
    cases hs
    exact hp
  | suppressed => exact ⟨h.genuine, h.current, h.acknowledged, fun _ hs => nomatch hs⟩
  | tooLarge => exact ⟨h.genuine, h.current, h.acknowledged, fun _ hs => nomatch hs⟩
  | @notWritten client snapshot due effective spooling hc hi hs hj hwritten =>
    cases effective with
    | false => exact ⟨h.genuine, h.current, h.acknowledged, fun _ hs => nomatch hs⟩
    | true => exact h.writes hL hi hj (by rfl) (.inl rfl) rfl rfl
  | enqueued hc hi hs hj hwritten =>
    exact h.writes hL hi hj List.filter_sublist (.inl rfl) rfl rfl
  | killedSpooling hc hi hs hj => exact h.writes hL hi hj List.filter_sublist (.inr rfl) rfl rfl
  | listed hc hw =>
    refine ⟨h.genuine, fun _ hs => (nomatch hs), fun _ hs => (nomatch hs), fun s hs => ?_⟩
    obtain ⟨hround, hfiles, -⟩ := h.offered s hs
    refine ⟨hround, hfiles, fun name hname => ?_⟩
    obtain ⟨f, hf, rfl⟩ := List.mem_map.mp hname
    exact hfiles f (Spool.mem_pendingFiles.mp hf).1
  | notListed => exact h.rests (by rfl) rfl rfl fun _ hs => hs
  | @read path paths moved f snapshot hw hf ht =>
    have hmem : f ∈ σ.spool.pending := List.mem_of_find?_eq_some hf
    have hname : f.name = path := by simpa using List.find?_some hf
    refine ⟨h.genuine, fun s hs g hg hgname t hgt => ?_, fun _ hs => (nomatch hs),
      fun s hs => ?_⟩
    · cases hs
      rw [h.genuine.single f hmem snapshot ht g hg hgname] at hgt
      exact Option.some.inj (hgt.symm.trans ht)
    · obtain ⟨hround, hfiles, hnames⟩ := h.offered s hs
      rw [hw] at hnames
      refine ⟨hround, hfiles, fun name hn => ?_⟩
      rcases List.mem_cons.mp hn with rfl | hn
      · intro hid
        exact hfiles f hmem (mem_entryNames.mp hid ▸ h.genuine.named f hmem snapshot ht)
      · exact hnames name (List.mem_cons_of_mem _ hn)
  | skipped hw hr =>
    refine h.goesOn (Spool.readPending_sublist _ _ _ _) rfl (fun name hn => ?_) fun _ hs => hs
    rw [hw]
    exact List.mem_cons_of_mem _ hn
  | notRead => exact h.rests (Spool.readPending_sublist _ _ _ _) rfl rfl fun _ hs => hs
  | @accepted snapshot paths hw =>
    have hcurrent := h.current
    have hoffered := h.offered
    rw [hw] at hcurrent
    unfold NewId at hoffered
    rw [hw] at hoffered
    exact ⟨h.genuine, hcurrent, fun s hs => by cases hs; exact List.mem_cons_self, hoffered⟩
  | lost hw =>
    exact ⟨h.genuine, h.current,
      fun s hs => List.mem_cons_of_mem _ (h.acknowledged s hs), h.offered⟩
  | @rejected snapshot paths why moved hw =>
    refine h.goesOn ?_ ?_ (fun name hn => ?_) fun _ hs => hs
    · show (if moved.effective then σ.spool.quarantineById snapshot.snapshotId
        else σ.spool).pending.Sublist _
      split
      · exact List.filter_sublist
      · rfl
    · show (if moved = .done then WorkerTask.next paths else .idle).current = none
      split <;> rfl
    · rw [hw]
      change name ∈ (if moved = .done then WorkerTask.next paths else .idle).names at hn
      split at hn
      · exact List.mem_cons_of_mem _ hn
      · cases hn
  | refused => exact h.rests (by rfl) rfl rfl fun _ hs => hs
  | @removed snapshot paths result hw =>
    refine h.goesOn ?_ ?_ (fun name hn => ?_) fun _ hs => hs
    · show (if result.effective then σ.spool.remove snapshot.snapshotId
        else σ.spool).pending.Sublist _
      split
      · exact List.filter_sublist
      · rfl
    · show (if result = .done then WorkerTask.removed _ paths else .idle).current = none
      split <;> rfl
    · rw [hw]
      change name ∈ (if result = .done then WorkerTask.removed _ paths else .idle).names at hn
      split at hn
      · exact List.mem_cons_of_mem _ hn
      · cases hn
  | stored hw => exact h.goesOn (by rfl) rfl (fun _ hn => by rwa [hw]) fun _ hs => hs
  | recorded hc hw => exact h.goesOn (by rfl) rfl (fun _ hn => by rwa [hw]) fun _ hs => hs
  | cleared => exact h.rests (by rfl) rfl rfl fun _ hs => hs
  | crash => exact h.rests (by rfl) rfl rfl fun _ hs => nomatch hs

/-! ### What it gives -/

/-- Nothing valid is moved aside that could be read. -/
theorem readPending_keeps (h : σ.Kept L) {path : String} {readable : Bool} {moved : FileResult}
    (hsafe : ∀ f ∈ σ.spool.find path, f.snapshot L ≠ none →
      readable = true ∨ moved.effective = false) {f : SpoolFile} (hf : f ∈ σ.spool.pending)
    (hvalid : f.snapshot L ≠ none) : f ∈ (σ.spool.readPending L path readable moved).2.pending := by
  rcases Spool.readPending_spool (L := L) (s := σ.spool) path readable moved with
    hsame | ⟨hmoved, heff, g, hg, hinvalid⟩
  · rw [hsame]
    exact hf
  · rw [hmoved, Spool.pending_moveAside, Spool.mem_without, List.mem_singleton]
    refine ⟨hf, fun hname => hvalid ?_⟩
    have hgname : g.name = path := by simpa using List.find?_some hg
    have hfg : f = g := List.inj_on_of_nodup_map h.genuine.names hf
      (List.mem_of_find?_eq_some hg) (hname.trans hgname.symm)
    rw [hfg] at hvalid ⊢
    rcases hsafe g hg hvalid with hr | hn
    · exact hinvalid hr
    · rw [heff] at hn
      cases hn

/-- What spooling a snapshot takes away is over the limit. -/
theorem spooled_keeps {snapshot : InventorySnapshot} {due : Bool} {modified place : Nat}
    (h : σ.Kept L) (hi : σ.inventory = .deciding snapshot due) (evictable : Option Nat)
    {f : SpoolFile} (hf : f ∈ σ.spool.pending) :
    f ∈ (σ.spooled L settings snapshot modified place evictable).pending ∨
      σ.Evicts L settings modified place f := by
  have hoffered : snapshot ∈ σ.inventory.offered := by rw [hi]; rfl
  have hwritten : f ∈ (σ.spool.write L snapshot modified place).pending :=
    Spool.mem_write.mpr (.inr ⟨hf, fun hname =>
      (h.offered snapshot hoffered).2.1 f hf (hname ▸ mem_entryNames.mpr rfl)⟩)
  rw [or_iff_not_imp_left, Delivery.spooled]
  intro hgone
  rw [Spool.mem_without, not_and_not_right] at hgone
  obtain ⟨g, hg, hname⟩ := List.mem_map.mp (List.take_subset _ _ (hgone hwritten))
  refine ⟨snapshot, hoffered, ?_⟩
  have hgfile : g ∈ (σ.spool.write L snapshot modified place).pending :=
    Spool.mem_of_mem_overLimit hg
  have hfg : g = f := List.inj_on_of_nodup_map
    (Spool.nodup_names_write h.genuine.names modified place) hgfile hwritten hname
  exact hfg ▸ hg

/-- Removing the files of the snapshot at hand removes that entry only. -/
theorem current_keeps (h : σ.Kept L) {s : InventorySnapshot} (hs : s ∈ σ.worker.current)
    {f : SpoolFile} (hf : f ∈ σ.spool.pending) {t : InventorySnapshot} (ht : t ∈ f.snapshot L) :
    f ∈ (σ.spool.without (entryNames s.snapshotId)).pending ∨ t = s := by
  by_cases hname : f.name ∈ entryNames s.snapshotId
  · exact .inr (h.current s hs f hf hname t ht)
  · exact .inl (Spool.mem_without.mpr ⟨hf, hname⟩)

/-- **In every step an entry stays, or leaves for one of the reasons.** -/
theorem retains (h : σ.Kept L) (he : e.Undisturbed L σ) : e.Retains L settings σ := by
  intro σ' hstep f hf t ht
  have hvalid : f.snapshot L ≠ none := fun hnone => by rw [hnone] at ht; cases ht
  have hm : Delivery.Moves L settings σ e σ' := Delivery.step_moves hstep
  cases hm with
  | passedOver hc hw hr => exact .inl (h.readPending_keeps (he _ (by rw [hw]; rfl)) hf hvalid)
  | skipped hw hr => exact .inl (h.readPending_keeps (he _ (by rw [hw]; rfl)) hf hvalid)
  | notRead hw hr => exact .inl (h.readPending_keeps (he _ (by rw [hw]; rfl)) hf hvalid)
  | @notWritten client snapshot due effective spooling hc hi hs hj hwritten =>
    left
    cases effective with
    | false => exact hf
    | true =>
      have hoffered : snapshot ∈ σ.inventory.offered := by rw [hi]; rfl
      exact Spool.mem_write.mpr (.inr ⟨hf, fun hname =>
        (h.offered snapshot hoffered).2.1 f hf (hname ▸ mem_entryNames.mpr rfl)⟩)
  | enqueued hc hi hs hj hwritten => exact h.spooled_keeps hi _ hf
  | killedSpooling hc hi hs hj => exact h.spooled_keeps hi _ hf
  | @rejected snapshot paths why moved hw =>
    rcases h.current_keeps (s := snapshot) (by rw [hw]; rfl) hf ht with hkept | rfl
    · left
      show f ∈ (if moved.effective then σ.spool.quarantineById snapshot.snapshotId
        else σ.spool).pending
      split
      · exact hkept
      · exact hf
    · right
      show t ∈ σ.worker.inSubmission
      rw [hw]
      rfl
  | @removed snapshot paths result hw =>
    rcases h.current_keeps (s := snapshot) (by rw [hw]; rfl) hf ht with hkept | rfl
    · left
      show f ∈ (if result.effective then σ.spool.remove snapshot.snapshotId
        else σ.spool).pending
      split
      · exact hkept
      · exact hf
    · have hacknowledged : t ∈ σ.worker.acknowledged := by
        rw [hw]
        rfl
      exact .inr ⟨h.acknowledged t hacknowledged, hacknowledged⟩
  | _ => exact .inl hf

end Delivery.Kept

/-! ## Every run -/

/-- The histories of an agent that is started on what it finds. -/
abbrev DeliveredFrom (L : Libraries) (settings : Settings) :
    Past Delivery DeliveryEvent → Delivery → Prop :=
  History (Delivery.Stopped L) fun _ σ e σ' => σ.step L settings e = some σ'

theorem Delivery.Stopped.kept (h : σ.Stopped L) : σ.Kept L := by
  obtain ⟨hgenuine, -, hinventory, hworker⟩ := h
  refine ⟨hgenuine, ?_, ?_, ?_⟩
  · rw [hworker]
    exact fun _ hs => nomatch hs
  · rw [hworker]
    exact fun _ hs => nomatch hs
  · rw [hinventory]
    exact fun _ hs => nomatch hs

/-- The worker and the spool agree in every state of a run. -/
theorem kept_of_delivered {past : Past Delivery DeliveryEvent} (hL : L.Lossless)
    (h : DeliveredFrom L settings past σ)
    (hproper : Throughout (fun _ σ e => DeliveryEvent.Proper L σ e) past) : σ.Kept L :=
  h.invariant (I := fun _ σ => σ.Kept L) hproper (fun _ hσ => hσ.kept)
    fun _ _ _ _ hI hp hstep => hI.moves hL hp (Delivery.step_moves hstep)

/-- **An entry waits for an answer.** In every run that keeps away from moving
valid entries aside, whatever else fails and wherever the process dies: an
entry that decompresses, decodes and validates leaves the pending directory
only once the server has accepted it, once the server has rejected it for
good, or over the limit. -/
theorem entries_wait {past : Past Delivery DeliveryEvent} (hL : L.Lossless)
    (h : DeliveredFrom L settings past σ)
    (hproper : Throughout (fun _ σ e => DeliveryEvent.Proper L σ e) past)
    (hsafe : Throughout (fun _ σ e => DeliveryEvent.Undisturbed L σ e) past) :
    Throughout (fun _ σ e => DeliveryEvent.Retains L settings σ e) past :=
  h.throughout (hproper.and hsafe)
    (fun _ _ h hC => kept_of_delivered hL h (hC.imp fun _ _ _ hC => hC.1))
    fun _ _ _ _ hI hC _ => hI.retains hC.2


/-! ## A failed read -/

namespace Sample

theorem fresh_stopped (L : Libraries) : fresh.Stopped L :=
  ⟨⟨List.nodup_nil, fun _ hf => (nomatch hf), fun _ hf => (nomatch hf)⟩, rfl, rfl, rfl⟩

def waiting : InventorySnapshot := snapshot "snap-1" "host"

def digestA : String := "aaaaaaaaaaaaaaaaaaaaaaaaaaaaaaaaaaaaaaaaaaaaaaaaaaaaaaaaaaaaaaaa"

def oneHost : Libraries := carrying [(waiting, digestA)]

/-- A client is made, a snapshot spooled and the spool listed. -/
def spooling : List DeliveryEvent := [
  .start true true true, .inspect true .done, .due waiting 100, .enqueue ⟨100, 0, .done, none⟩,
  .list true]

def unreadable : Past Delivery DeliveryEvent × Delivery :=
  deliver oneHost dailyRefresh fresh (spooling ++ [.read false .done])

/-- The server accepts the snapshot. -/
def answered : Past Delivery DeliveryEvent × Delivery :=
  deliver oneHost dailyRefresh fresh (spooling ++ [.read true .done, .answer .accepted, .remove .done,
    .store 101 .done, .record, .clear true])

end Sample

section Transient

open Sample

/-- **A read that fails moves a valid entry aside.** -/
theorem waiting_entry_moved_aside :
    DeliveredFrom oneHost dailyRefresh unreadable.1 unreadable.2 ∧
      Throughout (fun _ σ e => DeliveryEvent.Proper oneHost σ e) unreadable.1 ∧
      ¬ Throughout (fun _ σ e => DeliveryEvent.Retains oneHost dailyRefresh σ e) unreadable.1 :=
  ⟨deliver_history (fresh_stopped _) _ _ _, by decide +kernel, by decide +kernel⟩

theorem answered_waits :
    answered.1.length = 11 ∧
      Throughout (fun _ σ e => DeliveryEvent.Retains oneHost dailyRefresh σ e) answered.1 :=
  ⟨by decide +kernel, entries_wait (carrying_lossless _) (deliver_history (fresh_stopped _) _ _ _)
    (by decide +kernel) (by decide +kernel)⟩

end Transient

end Lariska
