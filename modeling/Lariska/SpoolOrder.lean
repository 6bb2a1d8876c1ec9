import Lariska.DrainPass

/-!
# The order of the spool

The order in which snapshots were spooled is not stored: it is read off the
modification times, and where two are the same, off the order in which the
directory happens to be enumerated. `order_kept_iff` says exactly when that
gives the order of the writes back, whatever the clock does.
-/

namespace Lariska

/-- **A spool with its files in the order they were written in**, whatever the
times and places they got, and whatever else was taken away meanwhile. -/
inductive WrittenAs (L : Libraries) : List SpoolFile → Spool → Prop where
  | empty (quarantine : List SpoolFile) : WrittenAs L [] ⟨[], quarantine⟩
  | write {written : List SpoolFile} {s : Spool} (snapshot : InventorySnapshot)
      (time place : Nat) (h : WrittenAs L written s) :
      WrittenAs L (written.filter (fun f => f.name ∉ [entryName snapshot.snapshotId])
        ++ [entryFile L snapshot time]) (s.write L snapshot time place)
  | takeAway {written : List SpoolFile} {s s' : Spool} (names : List String)
      (h : WrittenAs L written s) (hs : s'.pending = (s.without names).pending) :
      WrittenAs L (written.filter (fun f => f.name ∉ names)) s'

/-- **The spool keeps an order**: the paths are listed in it, a pass comes to
them in it, and `enforce_limit` evicts in it and never the last. -/
structure Spool.KeepsOrder (L : Libraries) (settings : Settings) (s : Spool)
    (written : List SpoolFile) : Prop where
  listed : s.pendingPaths = written.map SpoolFile.name
  drained : ∀ past σ, Delivered L settings past σ → enumerated past = some s →
    attempted past <+: written.map SpoolFile.name
  evicted : ∀ maxEntries, s.overLimit maxEntries <+: written.dropLast

/-- One file comes before another in `pending_files`: it was modified earlier,
or at the same time, and the directory has it first. -/
def Spool.Precedes (s : Spool) (f g : SpoolFile) : Prop :=
  Stamped.Precedes SpoolFile.modified s.pending f g

variable {L : Libraries} {settings : Settings} {s : Spool} {written : List SpoolFile}

/-- What was written is what is pending, under names of its own. -/
theorem WrittenAs.spec (h : WrittenAs L written s) :
    written.Perm s.pending ∧ (s.pending.map SpoolFile.name).Nodup ∧
      ∀ f ∈ s.pending, isSpoolFile f.name = true := by
  induction h with
  | empty quarantine => exact ⟨.refl _, List.nodup_nil, fun _ hf => (nomatch hf)⟩
  | write snapshot time place h ih =>
    obtain ⟨hperm, hnames, hentries⟩ := ih
    refine ⟨?_, Spool.nodup_names_write hnames time place, fun f hf => ?_⟩
    · refine List.perm_append_comm.trans (List.Perm.trans ?_ (perm_place _ place).symm)
      exact (hperm.filter _).cons _
    · rcases Spool.mem_write.mp hf with rfl | ⟨hf, -⟩
      · exact isSpoolFile_entryName _
      · exact hentries f hf
  | takeAway names h hs ih =>
    obtain ⟨hperm, hnames, hentries⟩ := ih
    rw [hs]
    exact ⟨hperm.filter _, Spool.nodup_names_without hnames names,
      fun f hf => hentries f (Spool.mem_without.mp hf).1⟩

/-- The spool of every state of every run is one of these. -/
theorem writtenAs_of_delivered {past : Past Delivery DeliveryEvent} {σ : Delivery}
    (h : Delivered L settings past σ) : ∃ written, WrittenAs L written σ.spool := by
  refine h.invariant' (I := fun _ σ => ∃ written, WrittenAs L written σ.spool)
    (fun σ hσ => ⟨[], hσ.1 ▸ .empty []⟩) fun past σ e σ' hI hstep => ?_
  obtain ⟨written, hwritten⟩ := hI
  have hread : ∀ path readable moved, ∃ written,
      WrittenAs L written (σ.spool.readPending L path readable moved).2 := by
    intro path readable moved
    rcases Spool.readPending_spool (L := L) (s := σ.spool) path readable moved with h | ⟨h, -⟩
    · exact ⟨written, by rwa [h]⟩
    · exact ⟨_, .takeAway [path] hwritten (by rw [h]; rfl)⟩
  have hspooled : ∀ snapshot modified place evictable, ∃ written,
      WrittenAs L written (σ.spooled L settings snapshot modified place evictable) :=
    fun snapshot modified place evictable =>
      ⟨_, .takeAway _ (.write snapshot modified place hwritten) rfl⟩
  have hm : Delivery.Moves L settings σ e σ' := Delivery.step_moves hstep
  cases hm with
  | passedOver | skipped | notRead => exact hread _ _ _
  | enqueued | killedSpooling => exact hspooled _ _ _ _
  | @notWritten client snapshot due effective spooling =>
    cases effective with
    | false => exact ⟨written, hwritten⟩
    | true => exact ⟨_, .write snapshot spooling.modified spooling.place hwritten⟩
  | @rejected snapshot paths why moved =>
    show ∃ written, WrittenAs L written
      (if moved.effective then σ.spool.quarantineById snapshot.snapshotId else σ.spool)
    split
    · exact ⟨_, .takeAway (entryNames snapshot.snapshotId) hwritten rfl⟩
    · exact ⟨written, hwritten⟩
  | @removed snapshot paths result =>
    show ∃ written, WrittenAs L written
      (if result.effective then σ.spool.remove snapshot.snapshotId else σ.spool)
    split
    · exact ⟨_, .takeAway (entryNames snapshot.snapshotId) hwritten rfl⟩
    · exact ⟨written, hwritten⟩
  | _ => exact ⟨written, hwritten⟩

/-- Files with names of their own are known by their names. -/
theorem names_inj {files others : List SpoolFile} (hnames : (s.pending.map SpoolFile.name).Nodup)
    (hfiles : files ⊆ s.pending) (hothers : others ⊆ s.pending)
    (h : files.map SpoolFile.name = others.map SpoolFile.name) : files = others := by
  have hfound : ∀ l ⊆ s.pending, (l.map SpoolFile.name).filterMap s.find = l := by
    intro l hl
    rw [List.filterMap_map]
    refine (List.filterMap_congr fun f hf => ?_).trans List.filterMap_some
    exact (Spool.find_eq_some hnames).mpr ⟨hl hf, rfl⟩
  rw [← hfound files hfiles, h, hfound others hothers]

/-- **When the order of the writes is kept**: of any two files, the one written
first has the lower modification time, or the same and the directory has it
first. -/
theorem order_kept_iff (h : WrittenAs L written s) :
    s.KeepsOrder L settings written ↔ written.Pairwise s.Precedes := by
  obtain ⟨hperm, hnames, hentries⟩ := h.spec
  have hnodup : s.pending.Nodup := hnames.of_map _
  have hfiles : s.pendingFiles = Stamped.inOrder SpoolFile.modified s.pending := by
    rw [Spool.pendingFiles, List.filter_eq_self.mpr hentries]
  have horder : s.pendingFiles = written ↔ written.Pairwise s.Precedes := by
    rw [hfiles]
    exact Stamped.inOrder_eq_iff hnodup hperm
  rw [← horder]
  constructor
  · intro hkeeps
    refine names_inj hnames (fun f hf => ?_) hperm.subset hkeeps.listed
    exact (Spool.mem_pendingFiles.mp hf).1
  · intro heq
    have hlisted : s.pendingPaths = written.map SpoolFile.name := congrArg _ heq
    refine ⟨hlisted, fun past σ hdelivered henum => ?_, fun maxEntries => ?_⟩
    · rw [← hlisted]
      exact (goes_through hdelivered fun σ hσ => hσ.2.2.2.2).begun s henum
    · obtain ⟨n, hn, htake⟩ := s.overLimit_eq_take maxEntries
      rw [htake, heq, List.dropLast_eq_take]
      rw [heq] at hn
      exact List.take_prefix_take_left (by omega)

/-! ## Two writes and a clock that steps back -/

namespace Sample

/-- A snapshot and the next, each written at a time. -/
def twoWrites (earlier later : Nat) : Spool :=
  ((⟨[], []⟩ : Spool).write fourStates first earlier 0).write fourStates second later 0

theorem twoWrites_written (earlier later : Nat) :
    WrittenAs fourStates [entryFile fourStates first earlier, entryFile fourStates second later]
      (twoWrites earlier later) :=
  .write second later 0 (.write first earlier 0 (.empty []))

end Sample

open Sample in
/-- **The order is lost**: where the clock has stepped back, the entry written
last is listed first, and evicted first. -/
theorem written_last_evicted_first :
    WrittenAs fourStates [entryFile fourStates first 200, entryFile fourStates second 100]
        (twoWrites 200 100) ∧
      (twoWrites 200 100).pendingPaths = ["snap-2.json.zst", "snap-1.json.zst"] ∧
      (twoWrites 200 100).overLimit 1 = [entryFile fourStates second 100] ∧
      ¬ (twoWrites 200 100).KeepsOrder fourStates dailyRefresh
        [entryFile fourStates first 200, entryFile fourStates second 100] := by
  have hpaths : (twoWrites 200 100).pendingPaths = ["snap-2.json.zst", "snap-1.json.zst"] := by
    decide +kernel
  refine ⟨twoWrites_written 200 100, hpaths, by decide +kernel, fun hkeeps => ?_⟩
  have hlisted := hkeeps.listed
  rw [hpaths] at hlisted
  exact absurd hlisted (by decide +kernel)

open Sample in
theorem twoWrites_keepsOrder :
    (twoWrites 100 200).KeepsOrder fourStates dailyRefresh
      [entryFile fourStates first 100, entryFile fourStates second 200] :=
  (order_kept_iff (twoWrites_written 100 200)).mpr
    (List.pairwise_pair.mpr (.inl (by decide +kernel)))

end Lariska
