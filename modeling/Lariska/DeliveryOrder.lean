import Lariska.SpoolRetention

/-!
# The queue between the two tasks

Without file faults, and with each entry written later than those that wait,
the spool is a queue: the worker goes through it from the oldest entry, the
inventory loop adds newer ones, and what the worker has at hand is always the
oldest entry there is, or was evicted. So an entry that is answered for is the
newest only where it is the last (`newest_without`), which is what the digest
enqueued last stands for.
-/

namespace Lariska

/-! ## A plan that begins with the oldest -/

/-- **The names of a plan are those of the oldest files, in order**: each file
of the plan is no younger than those of the plan after it, and none is younger
than a file outside the plan. -/
structure Spool.OldestFirst (s : Spool) (plan : List String) : Prop where
  sorted : plan.Pairwise fun n m => ∀ f ∈ s.pending, ∀ g ∈ s.pending, f.name = n → g.name = m →
    f.modified ≤ g.modified
  outside : ∀ f ∈ s.pending, f.name ∈ plan → ∀ g ∈ s.pending, g.name ∉ plan →
    f.modified ≤ g.modified

namespace Spool

variable {L : Libraries} {s s' : Spool} {plan : List String} {f : SpoolFile}
variable {snapshot : InventorySnapshot} {name : String}

theorem OldestFirst.nil (s : Spool) : s.OldestFirst [] :=
  ⟨List.Pairwise.nil, fun _ _ hn => (nomatch hn)⟩

theorem OldestFirst.of_subset (h : s.OldestFirst plan) (hsub : s'.pending ⊆ s.pending) :
    s'.OldestFirst plan :=
  ⟨h.sorted.imp fun hnm f hf g hg => hnm f (hsub hf) g (hsub hg),
    fun f hf hn g hg => h.outside f (hsub hf) hn g (hsub hg)⟩

/-- The first of the plan is the oldest of all. -/
theorem OldestFirst.head (h : s.OldestFirst (name :: plan)) (ho : s.Ordered)
    (hf : f ∈ s.pending) (hname : f.name = name) : ∀ g ∈ s.pending, f.modified ≤ g.modified := by
  intro g hg
  by_cases hn : g.name ∈ name :: plan
  · rcases List.mem_cons.mp hn with heq | hn
    · rw [ho.eq_of_name hf hg (hname.trans heq.symm)]
    · exact (List.pairwise_cons.mp h.sorted).1 g.name hn f hf g hg hname rfl
  · exact h.outside f hf (hname ▸ List.mem_cons_self) g hg hn

/-- Once its file is gone, the first is no longer of the plan. -/
theorem OldestFirst.tail (h : s.OldestFirst (name :: plan))
    (hgone : ∀ g ∈ s.pending, g.name ≠ name) : s.OldestFirst plan :=
  ⟨(List.pairwise_cons.mp h.sorted).2, fun f hf hn g hg hout =>
    h.outside f hf (List.mem_cons_of_mem _ hn) g hg
      fun hin => (List.mem_cons.mp hin).elim (hgone g hg) hout⟩

/-- A newer entry of another name is outside the plan. -/
theorem OldestFirst.write (h : s.OldestFirst plan) (hnew : entryName snapshot.snapshotId ∉ plan)
    {time : Nat} (hlater : ∀ f ∈ s.pending, f.modified < time) (place : Nat) :
    (s.write L snapshot time place).OldestFirst plan := by
  have hold : ∀ f ∈ (s.write L snapshot time place).pending, f.name ∈ plan → f ∈ s.pending := by
    intro f hf hn
    rcases Spool.mem_write.mp hf with rfl | ⟨hf, -⟩
    · exact absurd hn hnew
    · exact hf
  refine ⟨?_, fun f hf hn g hg hout => ?_⟩
  · refine h.sorted.imp_of_mem fun {n m} hn hm hnm f hf g hg hfn hgm => ?_
    exact hnm f (hold f hf (hfn ▸ hn)) g (hold g hg (hgm ▸ hm)) hfn hgm
  · rcases Spool.mem_write.mp hg with rfl | ⟨hg, -⟩
    · exact (hlater f (hold f hf hn)).le
    · exact h.outside f (hold f hf hn) hn g hg hout

/-- The paths of a queue in good order are a plan. -/
theorem Ordered.oldestFirst (ho : s.Ordered) : s.OldestFirst s.pendingPaths := by
  have hpaths : s.pendingPaths = (Stamped.inOrder SpoolFile.modified s.pending).map SpoolFile.name := by
    rw [Spool.pendingPaths, ho.pendingFiles]
  refine ⟨?_, fun f _ _ g hg hout => absurd ?_ hout⟩
  · rw [hpaths, List.pairwise_map]
    refine (Stamped.pairwise_inOrder SpoolFile.modified s.pending).imp_of_mem
      fun {a b} ha hb hab f hf g hg hfa hgb => ?_
    rw [ho.eq_of_name hf (Stamped.mem_inOrder.mp ha) hfa,
      ho.eq_of_name hg (Stamped.mem_inOrder.mp hb) hgb]
    exact hab
  · rw [hpaths]
    exact List.mem_map_of_mem (Stamped.mem_inOrder.mpr hg)

end Spool

/-! ## The invariant -/

/-- The snapshot is valid, goes through JSON as it is, and fits compressed; it
is offered under an id of its own. -/
def DeliveryEvent.Collected (L : Libraries) (σ : Delivery) : DeliveryEvent → Prop
  | .due snapshot _ => snapshot.Spoolable L ∧ σ.NewId snapshot.snapshotId
  | _ => True

/-- The inventory loop is about to write a snapshot, not to suppress it. -/
def Delivery.Writes (L : Libraries) (σ : Delivery) : Prop :=
  ∃ client ∈ σ.client, match σ.inventory with
    | .idle => False
    | .deciding snapshot due => client.suppresses (snapshot.contentDigest L) due = false

/-- An entry is written later than those that wait. -/
def DeliveryEvent.Later (L : Libraries) (σ : Delivery) : DeliveryEvent → Prop
  | .enqueue spooling => σ.Writes L → ∀ f ∈ σ.spool.pending, f.modified < spooling.modified
  | .killedSpooling modified _ _ => σ.Writes L → ∀ f ∈ σ.spool.pending, f.modified < modified
  | _ => True

/-- What runs when: nothing without a client, and the inventory loop only once
the client is made. -/
structure Delivery.Staged (σ : Delivery) : Prop where
  stopped : σ.client = none → σ.inventory = .idle ∧ σ.worker = .idle
  apart : σ.inventory = .idle ∨ ∀ paths, σ.worker ≠ .inspecting paths

/-- **The spool is a queue** of valid entries under their own names, and the
worker goes through it from the oldest. -/
structure Delivery.Queues (L : Libraries) (σ : Delivery) : Prop where
  ordered : σ.spool.Ordered
  valid : ∀ f ∈ σ.spool.pending, ∃ t ∈ f.snapshot L, f.name = entryName t.snapshotId
  plan : σ.spool.OldestFirst σ.worker.names
  present : σ.worker.current ≠ none → σ.spool.pending ≠ []
  inspecting : ∀ paths, σ.worker = .inspecting paths → paths = σ.spool.pendingPaths.reverse
  offered : ∀ s ∈ σ.inventory.offered, s.Spoolable L

variable {L : Libraries} {settings : Settings} {σ σ' : Delivery} {e : DeliveryEvent}

theorem Delivery.Staged.running (hc : σ.client ≠ none)
    (h : σ.inventory = .idle ∨ ∀ paths, σ.worker ≠ .inspecting paths) : σ.Staged :=
  ⟨fun hn => absurd hn hc, h⟩

theorem Delivery.Staged.moves (h : σ.Staged) (hm : Delivery.Moves L settings σ e σ') :
    σ'.Staged := by
  have hclient : ∀ {w : WorkerTask}, σ.worker = w → w ≠ .idle → σ.client ≠ none :=
    fun hw hne hn => hne (hw.symm.trans (h.stopped hn).2)
  have hsome : ∀ {c : Client}, σ.client = some c → σ.client ≠ none :=
    fun hc => hc ▸ Option.some_ne_none _
  cases hm with
  | start hc => exact .running (Option.some_ne_none _) (.inl (h.stopped hc).1)
  | inspected | recorded | cleared =>
    exact .running (Option.some_ne_none _) (.inr fun _ hp => (nomatch hp))
  | passedOver hc hw => exact .running (hsome hc) (.inl (h.apart.resolve_right fun hn => hn _ hw))
  | inspectedAll hc | listed hc | notListed hc =>
    exact .running (hsome hc) (.inr fun _ hp => (nomatch hp))
  | due hc hi hw => exact .running (hsome hc) (.inr hw)
  | suppressed hc | tooLarge hc | notWritten hc => exact .running (hsome hc) (.inl rfl)
  | enqueued => exact .running (Option.some_ne_none _) (.inl rfl)
  | killedSpooling | crash => exact ⟨fun _ => ⟨rfl, rfl⟩, .inl rfl⟩
  | read hw | skipped hw | notRead hw | accepted hw | refused hw | stored hw =>
    exact .running (hclient hw nofun) (.inr fun _ hp => (nomatch hp))
  | lost hw => exact .running (hclient hw nofun) h.apart
  | @rejected snapshot paths why moved hw =>
    refine .running (hclient hw nofun) (.inr fun rest => ?_)
    show (if moved = .done then WorkerTask.next paths else .idle) ≠ .inspecting rest
    split <;> exact nofun
  | @removed snapshot paths result hw =>
    refine .running (hclient hw nofun) (.inr fun rest => ?_)
    show (if result = .done then WorkerTask.removed _ paths else .idle) ≠ .inspecting rest
    split <;> exact nofun

instance : Decidable (σ.Writes L) := by
  unfold Delivery.Writes
  have : ∀ client : Client, Decidable (match σ.inventory with
      | .idle => False
      | .deciding snapshot due => client.suppresses (snapshot.contentDigest L) due = false) :=
    fun _ => by rcases σ.inventory with ⟨⟩ <;> infer_instance
  infer_instance

instance : Decidable (e.Later L σ) := by
  unfold DeliveryEvent.Later
  rcases e with ⟨⟩ <;> infer_instance

namespace Delivery.Queues

/-- Each file of the queue can be read. -/
theorem found (h : σ.Queues L) {name : String} (hname : name ∈ σ.spool.pendingPaths) :
    ∃ f t, σ.spool.find name = some f ∧ f.snapshot L = some t := by
  obtain ⟨f, hf, rfl⟩ := List.mem_map.mp hname
  have hmem : f ∈ σ.spool.pending := (Spool.mem_pendingFiles.mp hf).1
  obtain ⟨t, ht, -⟩ := h.valid f hmem
  exact ⟨f, t, h.ordered.find_eq_some.mpr ⟨hmem, rfl⟩, ht⟩

/-- A file that is there is read. -/
theorem readPending_none (h : σ.Queues L) {name : String} {moved : FileResult}
    (hr : ∀ t, (σ.spool.readPending L name true moved).1 ≠ .ok (some t)) :
    σ.spool.find name = none := by
  cases hf : σ.spool.find name with
  | none => rfl
  | some f =>
    obtain ⟨t, ht, -⟩ := h.valid f (h.ordered.find_eq_some.mp hf).1
    exact absurd (by rw [Spool.readPending_of_find hf ht]) (hr t)

/-- No entry is passed over when a client is made. -/
theorem not_passedOver (h : σ.Queues L) {path : String} {paths : List String} {moved : FileResult}
    (hw : σ.worker = .inspecting (path :: paths))
    (hr : ∀ t, (σ.spool.readPending L path true moved).1 ≠ .ok (some t)) : False := by
  have hpaths := h.inspecting _ hw
  obtain ⟨f, t, hf, -⟩ := h.found (List.mem_reverse.mp (hpaths ▸ List.mem_cons_self))
  rw [h.readPending_none hr] at hf
  cases hf

/-- The first entry inspected is the newest. -/
theorem newest_inspected (h : σ.Queues L) {path : String} {paths : List String} {f : SpoolFile}
    (hw : σ.worker = .inspecting (path :: paths)) (hf : σ.spool.find path = some f) :
    σ.spool.newest = some f := by
  have hlast : σ.spool.pendingPaths.getLast? = some path := by
    rw [← List.head?_reverse, ← h.inspecting _ hw, List.head?_cons]
  rw [Spool.pendingPaths, List.getLast?_map, Option.map_eq_some_iff] at hlast
  obtain ⟨g, hg, hname⟩ := hlast
  have hmem : g ∈ σ.spool.pending := (Spool.mem_pendingFiles.mp (List.mem_of_getLast? hg)).1
  have hfound : σ.spool.find path = some g := h.ordered.find_eq_some.mpr ⟨hmem, hname⟩
  rw [Spool.newest, hg, ← hf, hfound]

/-- Where nothing is left to inspect, nothing is pending. -/
theorem empty_inspected (h : σ.Queues L) (hw : σ.worker = .inspecting []) :
    σ.spool.pending = [] := by
  have hpaths : σ.spool.pendingPaths = [] := by
    rw [← List.reverse_eq_nil_iff, ← h.inspecting _ hw]
  rw [← h.ordered.newest_eq_none, Spool.newest, List.map_eq_nil_iff.mp hpaths, List.getLast?_nil]

/-- A pass skips nothing. -/
theorem not_skipped (h : σ.Queues L) {path : String} {moved : FileResult}
    (hr : (σ.spool.readPending L path true moved).1 = .ok none) : False := by
  have hgone := h.readPending_none fun t ht => by rw [hr] at ht; cases ht
  rw [Spool.readPending_of_gone hgone] at hr
  cases hr

/-- The spool after a snapshot has been written, and some of the others evicted. -/
theorem spooled (settings : Settings) {snapshot : InventorySnapshot} {due : Bool}
    {modified : Nat} (place : Nat) (h : σ.Queues L) (hk : σ.Kept L) (hL : L.Lossless)
    (hi : σ.inventory = .deciding snapshot due)
    (hjson : snapshot.toCanonicalJson.length ≤ maxSnapshotBytes)
    (hlater : ∀ f ∈ σ.spool.pending, f.modified < modified) (evictable : Option Nat) :
    (σ.spooled L settings snapshot modified place evictable).Ordered ∧
      (σ.spooled L settings snapshot modified place evictable).newest
        = some (entryFile L snapshot modified) ∧
      (∀ f ∈ (σ.spooled L settings snapshot modified place evictable).pending,
        ∃ t ∈ f.snapshot L, f.name = entryName t.snapshotId) ∧
      (σ.spooled L settings snapshot modified place evictable).OldestFirst σ.worker.names := by
  have hoffered : snapshot ∈ σ.inventory.offered := by rw [hi]; rfl
  have hordered : (σ.spool.write L snapshot modified place).Ordered := h.ordered.write place hlater
  have hfile : entryFile L snapshot modified ∈ (σ.spool.write L snapshot modified place).pending :=
    Spool.mem_write.mpr (.inl rfl)
  have hnewest : (σ.spool.write L snapshot modified place).newest
      = some (entryFile L snapshot modified) := by
    refine hordered.newest_eq_some.mpr ⟨hfile, fun g hg => ?_⟩
    rcases Spool.mem_write.mp hg with rfl | ⟨hg, -⟩
    · exact le_rfl
    · exact (hlater g hg).le
  unfold Delivery.spooled
  refine ⟨hordered.without _, ?_, fun f hf => ?_, ?_⟩
  · refine (hordered.without _).newest_eq_some.mpr ⟨Spool.mem_without.mpr ⟨hfile, fun hn => ?_⟩,
      fun g hg => (hordered.newest_eq_some.mp hnewest).2 g (Spool.mem_without.mp hg).1⟩
    obtain ⟨g, hg, hname⟩ := List.mem_map.mp (List.take_subset _ _ hn)
    have hgf : g = entryFile L snapshot modified :=
      hordered.eq_of_name (Spool.mem_of_mem_overLimit hg) hfile hname
    exact hordered.newest_not_over hnewest _ (hgf ▸ hg)
  · rcases Spool.mem_write.mp (Spool.mem_without.mp hf).1 with rfl | ⟨hf, -⟩
    · exact ⟨snapshot, (h.offered snapshot hoffered).snapshot_entryFile hL hjson modified, rfl⟩
    · exact h.valid f hf
  · refine (h.plan.write (fun hn => ?_) hlater place).of_subset
      fun f hf => (Spool.mem_without.mp hf).1
    exact (hk.offered snapshot hoffered).2.2 _ hn (mem_entryNames.mpr rfl)

/-- The entry at hand goes by its first name. -/
theorem mem_entryNames_iff (h : σ.Queues L) {f : SpoolFile} (hf : f ∈ σ.spool.pending)
    (id : String) : f.name ∈ entryNames id ↔ f.name = entryName id := by
  obtain ⟨t, -, hname⟩ := h.valid f hf
  rw [hname, mem_entryNames, entryName_inj]

/-- **Answering for the entry at hand leaves the newest**, unless it was the
last. -/
theorem newest_without (h : σ.Queues L) (hk : σ.Kept L) {t : InventorySnapshot}
    (ht : t ∈ σ.worker.current) :
    (σ.spool.without (entryNames t.snapshotId)).newest = σ.spool.newest ∨
      (σ.spool.without (entryNames t.snapshotId)).pending = [] ∧
        ∃ f, σ.spool.newest = some f ∧ f.snapshot L = some t := by
  have hordered := h.ordered.without (entryNames t.snapshotId)
  cases hf : σ.spool.newest with
  | none =>
    left
    rw [hordered.newest_eq_none]
    exact List.filter_eq_nil_iff.mpr fun g hg => by
      rw [h.ordered.newest_eq_none.mp hf] at hg
      cases hg
  | some f =>
    obtain ⟨hmem, hnewest⟩ := h.ordered.newest_eq_some.mp hf
    by_cases hname : f.name ∈ entryNames t.snapshotId
    · right
      obtain ⟨u, hu, hfu⟩ := h.valid f hmem
      have hut : u = t := hk.current t ht f hmem hname u hu
      -- It is the oldest as well, so there is no other.
      have hplan : ∃ rest, σ.worker.names = entryName t.snapshotId :: rest := by
        cases hw : σ.worker with
        | submitting s paths | accepted s paths =>
          rw [hw] at ht
          cases ht
          exact ⟨paths, rfl⟩
        | _ => rw [hw] at ht; cases ht
      obtain ⟨rest, hrest⟩ := hplan
      have holdest := (hrest ▸ h.plan).head h.ordered hmem (hut ▸ hfu)
      refine ⟨List.filter_eq_nil_iff.mpr fun g hg => ?_, f, rfl, hut ▸ hu⟩
      have hgf : g = f := h.ordered.eq_of_time hg hmem (le_antisymm (hnewest g hg) (holdest g hg))
      simpa [hgf] using hname
    · left
      refine hordered.newest_eq_some.mpr ⟨Spool.mem_without.mpr ⟨hmem, hname⟩, fun g hg => ?_⟩
      exact hnewest g (Spool.mem_without.mp hg).1

/-- A step that leaves the spool, with no new plan. -/
theorem stays (h : σ.Queues L) (hspool : σ'.spool = σ.spool)
    (hnames : σ'.worker.names = [] ∨ σ'.worker.names = σ.worker.names)
    (hcurrent : σ'.worker.current ≠ none → σ.worker.current ≠ none)
    (hinspecting : ∀ paths, σ'.worker = .inspecting paths → paths = σ.spool.pendingPaths.reverse)
    (hoffered : ∀ s ∈ σ'.inventory.offered, s.Spoolable L) : σ'.Queues L where
  ordered := hspool ▸ h.ordered
  valid := hspool ▸ h.valid
  plan := by
    rw [hspool]
    rcases hnames with hn | hn <;> rw [hn]
    · exact .nil _
    · exact h.plan
  present hc := hspool ▸ h.present (hcurrent hc)
  inspecting := hspool ▸ hinspecting
  offered := hoffered

/-- The worker is done with the entry at hand. -/
theorem leaves (h : σ.Queues L) {t : InventorySnapshot} {paths : List String}
    (hcurrent : σ.worker.names = entryName t.snapshotId :: paths)
    (hspool : σ'.spool.pending = (σ.spool.without (entryNames t.snapshotId)).pending)
    (hnames : σ'.worker.names = paths) (hnone : σ'.worker.current = none)
    (hinspecting : ∀ paths, σ'.worker ≠ .inspecting paths)
    (hinventory : σ'.inventory = σ.inventory) : σ'.Queues L := by
  have hsub : σ'.spool.pending ⊆ σ.spool.pending := by
    rw [hspool]
    exact fun f hf => (Spool.mem_without.mp hf).1
  have hsame : σ'.spool.Ordered := by
    have hordered := h.ordered.without (entryNames t.snapshotId)
    exact ⟨hspool ▸ hordered.entries, hspool ▸ hordered.names, hspool ▸ hordered.times⟩
  refine ⟨hsame, fun f hf => h.valid f (hsub hf), ?_, fun hc => absurd hnone hc,
    fun paths hp => absurd hp (hinspecting paths), hinventory ▸ h.offered⟩
  rw [hnames]
  refine ((hcurrent ▸ h.plan).of_subset hsub).tail fun g hg hgn => ?_
  rw [hspool] at hg
  exact (Spool.mem_without.mp hg).2 (hgn ▸ mem_entryNames.mpr rfl)

/-- **Every step keeps the queue.** -/
theorem moves (h : σ.Queues L) (hk : σ.Kept L) (hstaged : σ.Staged) (hL : L.Lossless) (hfault : e.Faultless)
    (hcollected : e.Collected L σ) (hlater : e.Later L σ)
    (hm : Delivery.Moves L settings σ e σ') : σ'.Queues L := by
  cases hm with
  | start hc =>
    obtain ⟨rfl, rfl⟩ := hfault
    exact h.stays rfl (.inl rfl) (fun hn => absurd rfl hn)
      (fun paths hp => (WorkerTask.inspecting.inj hp).symm) h.offered
  | inspected | inspectedAll | notListed | refused | cleared =>
    exact h.stays rfl (.inl rfl) (fun hn => absurd rfl hn) (fun _ hp => (nomatch hp)) h.offered
  | passedOver hc hw hr =>
    obtain ⟨rfl, rfl⟩ := hfault
    exact (h.not_passedOver hw hr).elim
  | due hc hi hw =>
    refine h.stays rfl (.inr rfl) (fun hn => hn) (fun paths hp => absurd hp (hw paths)) fun s hs => ?_
    cases hs
    exact hcollected.1
  | suppressed | tooLarge =>
    exact h.stays rfl (.inr rfl) (fun hn => hn) h.inspecting fun _ hs => (nomatch hs)
  | notWritten hc hi hs hj hwritten =>
    rw [hfault.1] at hwritten
    cases hwritten
  | @enqueued client snapshot due spooling hc hi hs hj hwritten =>
    have hwrites : σ.Writes L := ⟨client, hc, by rw [hi]; exact hs⟩
    obtain ⟨hordered, hnewest, hvalid, hplan⟩ := spooled settings spooling.place h hk hL hi hj
      (hlater hwrites) spooling.evictable
    refine ⟨hordered, hvalid, hplan, fun _ hn => ?_, fun paths hp => ?_, fun _ hs => (nomatch hs)⟩
    · rw [hordered.newest_eq_none.mpr hn] at hnewest
      cases hnewest
    · rcases hstaged.apart with hidle | hw
      · rw [hi] at hidle
        cases hidle
      · exact absurd hp (hw paths)
  | @killedSpooling client snapshot due modified place evicted hc hi hs hj =>
    have hwrites : σ.Writes L := ⟨client, hc, by rw [hi]; exact hs⟩
    obtain ⟨hordered, -, hvalid, -⟩ := spooled settings place h hk hL hi hj (hlater hwrites)
      (some evicted)
    exact ⟨hordered, hvalid, .nil _, fun hn => absurd rfl hn, fun _ hp => (nomatch hp),
      fun _ hs => (nomatch hs)⟩
  | listed hc hw =>
    exact ⟨h.ordered, h.valid, h.ordered.oldestFirst, fun hn => absurd rfl hn,
      fun _ hp => (nomatch hp), h.offered⟩
  | read hw hf ht =>
    obtain ⟨hmem, hname⟩ := h.ordered.find_eq_some.mp hf
    obtain ⟨t, ht', hft⟩ := h.valid _ hmem
    have hplan := h.plan
    rw [hw] at hplan
    cases ht.symm.trans ht'
    refine ⟨h.ordered, h.valid, ?_, fun _ => List.ne_nil_of_mem hmem, fun _ hp => (nomatch hp),
      h.offered⟩
    show σ.spool.OldestFirst (entryName _ :: _)
    rw [← hft, hname]
    exact hplan
  | skipped hw hr =>
    obtain ⟨rfl, rfl⟩ := hfault
    exact (h.not_skipped hr).elim
  | notRead hw hr =>
    obtain ⟨rfl, rfl⟩ := hfault
    have hgone := h.readPending_none fun t ht => by rw [hr] at ht; cases ht
    refine h.stays ?_ (.inl rfl) (fun hn => absurd rfl hn) (fun _ hp => (nomatch hp)) h.offered
    exact congrArg Prod.snd (Spool.readPending_of_gone hgone true .done)
  | accepted hw =>
    refine ⟨h.ordered, h.valid, ?_, fun _ => ?_, fun _ hp => (nomatch hp), h.offered⟩
    · have hplan := h.plan
      rwa [hw] at hplan
    · exact h.present (by rw [hw]; exact Option.some_ne_none _)
  | lost hw => exact h.stays rfl (.inr rfl) (fun hn => hn) h.inspecting h.offered
  | rejected hw =>
    cases hfault
    exact h.leaves (by rw [hw]; rfl) rfl rfl rfl (fun _ hp => (nomatch hp)) rfl
  | removed hw =>
    cases hfault
    exact h.leaves (by rw [hw]; rfl) rfl rfl rfl (fun _ hp => (nomatch hp)) rfl
  | stored hw | recorded hc hw =>
    exact h.stays rfl (.inr (by rw [hw]; rfl)) (fun hn => absurd rfl hn) (fun _ hp => (nomatch hp))
      h.offered
  | crash =>
    exact h.stays rfl (.inl rfl) (fun hn => absurd rfl hn) (fun _ hp => (nomatch hp))
      fun _ hs => (nomatch hs)

end Delivery.Queues

end Lariska
