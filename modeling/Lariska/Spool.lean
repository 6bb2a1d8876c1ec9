import Lariska.Inventory
import Lariska.Latest

/-!
# The spool

The directory of snapshots that wait to be acknowledged, one file each, with
its quarantine. A file is named by the id of the snapshot it is written for;
the order of the queue is not stored but read off the modification times. The
operations here are total on the directory: how a call can fail, and what it
has done by then, is said where the delivery client makes it.
-/

namespace Lariska

def maxSnapshotBytes : Nat := 8 * 1024 * 1024
def maxSpoolBytes : Nat := 128 * 1024 * 1024

structure SpoolFile where
  name : String
  /-- The modification time. -/
  modified : Nat
  bytes : Bytes
deriving DecidableEq

def SpoolFile.size (f : SpoolFile) : Nat := f.bytes.length

structure Spool where
  /-- The directory, in the order it is enumerated. -/
  pending : List SpoolFile
  quarantine : List SpoolFile
deriving DecidableEq

/-! ## Names -/

def entryName (snapshotId : String) : String := snapshotId ++ ".json.zst"

/-- The name an older agent gave the entry. -/
def legacyName (snapshotId : String) : String := snapshotId ++ ".json"

/-- The names an entry can have. -/
def entryNames (snapshotId : String) : List String := [entryName snapshotId, legacyName snapshotId]

def endsWith (name suffix : String) : Bool :=
  (Json.bytes suffix).isSuffixOf (Json.bytes name)

/-- The test of `pending_files`: a dot file has no extension. -/
def isSpoolFile (name : String) : Bool :=
  endsWith name ".json.zst" || (endsWith name ".json" && 5 < name.utf8ByteSize)

theorem isSpoolFile_entryName (id : String) : isSpoolFile (entryName id) = true := by
  unfold isSpoolFile endsWith entryName
  rw [Json.bytes_append, List.isSuffixOf_iff_suffix.mpr (List.suffix_append _ _)]
  rfl

theorem entryName_inj {id id' : String} : entryName id = entryName id' ↔ id = id' :=
  String.append_left_inj _

/-- The two names an entry can have are never those of two entries. -/
theorem entryName_ne_legacyName (id id' : String) : entryName id ≠ legacyName id' := by
  intro h
  have hlast := congrArg (fun s => (Json.bytes s).getLast?) h
  simp only [entryName, legacyName, Json.bytes_append] at hlast
  rw [List.getLast?_append_of_ne_nil _ (by decide), List.getLast?_append_of_ne_nil _ (by decide)]
    at hlast
  exact absurd hlast (by decide)

/-- How a file operation ends: an error may come after it took effect. -/
inductive FileResult where
  | done
  | failed (effective : Bool)
deriving DecidableEq

/-- The operation took effect. -/
def FileResult.effective : FileResult → Bool
  | .done => true
  | .failed effective => effective

/-! ## Entries -/

def isZstdMagic (bytes : Bytes) : Bool := bytes.take 4 == [0x28, 0xB5, 0x2F, 0xFD]

/-- An error with a note on what was being done. -/
def noted (note : String) {α : Type} : Except String α → Except String α
  | .ok a => .ok a
  | .error e => .error (note ++ e)

/-- `read_entry` of a file that can be read. -/
def readEntry (L : Libraries) (f : SpoolFile) : Except String InventorySnapshot := do
  demand (f.size ≤ maxSnapshotBytes)
    ("spool entry exceeds the " ++ toString maxSnapshotBytes ++ " byte compressed-input limit")
  let compressed := endsWith f.name ".zst" || isZstdMagic f.bytes
  let json ← if compressed then
      noted "failed to decompress spool entry: " (L.decompress (maxSnapshotBytes + 1) f.bytes)
    else .ok (f.bytes.take (maxSnapshotBytes + 1))
  demand (json.length ≤ maxSnapshotBytes)
    ("decompressed spool entry exceeds the " ++ toString maxSnapshotBytes ++ " byte limit")
  let snapshot ← L.fromSlice json
  snapshot.validate L
  pure snapshot

namespace Spool

/-- The file of a name. -/
def find (s : Spool) (name : String) : Option SpoolFile := s.pending.find? fun f => f.name == name

/-- `pending_files`: oldest first. -/
def pendingFiles (s : Spool) : List SpoolFile :=
  Stamped.inOrder SpoolFile.modified (s.pending.filter fun f => isSpoolFile f.name)

/-- `pending_paths`. -/
def pendingPaths (s : Spool) : List String := s.pendingFiles.map SpoolFile.name

/-- The directory without the files of some names. -/
def without (s : Spool) (names : List String) : Spool :=
  { s with pending := s.pending.filter fun f => f.name ∉ names }

/-- `write`, at a time: the file takes a place in the directory, in the stead of
one of its name. -/
def write (L : Libraries) (s : Spool) (snapshot : InventorySnapshot) (time place : Nat) : Spool :=
  let file : SpoolFile :=
    ⟨entryName snapshot.snapshotId, time, L.compress snapshot.toCanonicalJson⟩
  let others := (s.without [file.name]).pending
  { s with pending := others.take place ++ file :: others.drop place }

/-- `remove`. -/
def remove (s : Spool) (snapshotId : String) : Spool :=
  s.without [entryName snapshotId, legacyName snapshotId]

/-- Moves the files of some names aside. -/
def moveAside (s : Spool) (names : List String) : Spool :=
  let moved := s.pending.filter fun f => f.name ∈ names
  { pending := (s.without names).pending
    quarantine := moved ++ s.quarantine.filter fun f => f.name ∉ moved.map SpoolFile.name }

/-- `quarantine_by_id`. -/
def quarantineById (s : Spool) (snapshotId : String) : Spool :=
  s.moveAside [entryName snapshotId, legacyName snapshotId]

/-- `read_pending`, of a file that can be opened and read or not: what cannot be
read as an entry is moved aside. A file that is gone is not there to be moved
either, which is the error. -/
def readPending (L : Libraries) (s : Spool) (name : String) (readable : Bool)
    (moved : FileResult) : Except Unit (Option InventorySnapshot) × Spool :=
  match s.find name with
  | none => (.error (), s)
  | some f =>
    match if readable then readEntry L f else .error "failed to read spool entry" with
    | .ok snapshot => (.ok (some snapshot), s)
    | .error _ =>
      (match moved with
        | .done => .ok none
        | .failed _ => .error (),
        if moved.effective then s.moveAside [name] else s)

/-! ## Capacity -/

/-- `u64::saturating_add`. -/
def saturatingAdd (a b : Nat) : Nat := min (a + b) (2 ^ 64 - 1)

/-- The loop of `enforce_limit`: the entries it removes. -/
def evictions (maxEntries : Nat) : Nat → Nat → List SpoolFile → List SpoolFile
  | _, _, [] => []
  | remaining, total, entry :: rest =>
    if remaining ≤ maxEntries ∧ total ≤ maxSpoolBytes then []
    else if remaining ≤ 1 then []
    else entry :: evictions maxEntries (remaining - 1) (total - entry.size) rest

/-- The entries `enforce_limit` removes, oldest first. -/
def overLimit (s : Spool) (maxEntries : Nat) : List SpoolFile :=
  let entries := s.pendingFiles
  evictions (max maxEntries 1) entries.length
    (entries.foldl (fun total entry => saturatingAdd total entry.size) 0) entries

end Spool

/-! ## What a file holds -/

/-- What a file holds, where it decompresses, decodes and validates. -/
def SpoolFile.snapshot (L : Libraries) (f : SpoolFile) : Option InventorySnapshot :=
  (readEntry L f).toOption

/-- The file `write` makes of a snapshot. -/
def entryFile (L : Libraries) (snapshot : InventorySnapshot) (time : Nat) : SpoolFile :=
  ⟨entryName snapshot.snapshotId, time, L.compress snapshot.toCanonicalJson⟩

/-- Decompression inverts compression. -/
def Libraries.Lossless (L : Libraries) : Prop :=
  ∀ bytes limit, L.decompress limit (L.compress bytes) = .ok (bytes.take limit)

variable {L : Libraries} {s : Spool} {f g : SpoolFile} {snapshot t : InventorySnapshot}

theorem SpoolFile.snapshot_eq_some : f.snapshot L = some t ↔ readEntry L f = .ok t := by
  unfold SpoolFile.snapshot
  cases readEntry L f <;> simp [Except.toOption]

theorem endsWith_zst_entryName (id : String) : endsWith (entryName id) ".zst" = true := by
  unfold endsWith entryName
  rw [show id ++ ".json.zst" = (id ++ ".json") ++ ".zst" by rw [String.append_assoc]; rfl,
    Json.bytes_append]
  exact List.isSuffixOf_iff_suffix.mpr (List.suffix_append _ _)

/-- What a file holds that `write` made. -/
theorem snapshot_entryFile (hL : L.Lossless) (hs : L.RoundTrips snapshot)
    (hjson : snapshot.toCanonicalJson.length ≤ maxSnapshotBytes) (time : Nat) :
    (entryFile L snapshot time).snapshot L =
      if (L.compress snapshot.toCanonicalJson).length ≤ maxSnapshotBytes ∧
        snapshot.validate L = .ok () then some snapshot else none := by
  have hzst : endsWith (entryFile L snapshot time).name ".zst" = true :=
    endsWith_zst_entryName snapshot.snapshotId
  have hread : L.decompress (maxSnapshotBytes + 1) (entryFile L snapshot time).bytes
      = .ok snapshot.toCanonicalJson := by
    rw [entryFile, hL, List.take_of_length_le (by omega)]
  have hs : L.fromSlice snapshot.toCanonicalJson = .ok snapshot := hs
  unfold SpoolFile.snapshot readEntry
  rw [hzst, Bool.true_or, if_pos rfl, hread]
  show (do
    demand ((L.compress snapshot.toCanonicalJson).length ≤ maxSnapshotBytes) _
    demand (snapshot.toCanonicalJson.length ≤ maxSnapshotBytes) _
    let t ← L.fromSlice snapshot.toCanonicalJson
    t.validate L
    pure t : Except String InventorySnapshot).toOption = _
  by_cases hsmall : (L.compress snapshot.toCanonicalJson).length ≤ maxSnapshotBytes
  · rw [demand, demand, if_pos hsmall, if_pos hjson, hs]
    cases hv : snapshot.validate L with
    | ok _ => simp [hsmall, hv, bind, Except.bind, Except.toOption, pure, Except.pure]
    | error _ => simp [hv, bind, Except.bind, Except.toOption]
  · rw [demand, if_neg hsmall, if_neg fun h => hsmall h.1]
    rfl

/-- A snapshot that can be spooled: it is valid, goes through JSON as it is,
and compressed it keeps to the limit. -/
structure InventorySnapshot.Spoolable (L : Libraries) (s : InventorySnapshot) : Prop where
  valid : s.validate L = .ok ()
  roundTrips : L.RoundTrips s
  compressed : (L.compress s.toCanonicalJson).length ≤ maxSnapshotBytes

theorem InventorySnapshot.Spoolable.snapshot_entryFile (h : snapshot.Spoolable L) (hL : L.Lossless)
    (hjson : snapshot.toCanonicalJson.length ≤ maxSnapshotBytes) (time : Nat) :
    (entryFile L snapshot time).snapshot L = some snapshot := by
  rw [Lariska.snapshot_entryFile hL h.roundTrips hjson, if_pos ⟨h.compressed, h.valid⟩]

namespace Spool

/-- What is read of an entry is what it holds. -/
theorem readPending_eq_some {name : String} {readable : Bool} {moved : FileResult} {s' : Spool}
    (h : s.readPending L name readable moved = (.ok (some t), s')) :
    s' = s ∧ readable = true ∧ ∃ f, s.find name = some f ∧ f.snapshot L = some t := by
  unfold readPending at h
  split at h
  · cases h
  · next f hf =>
    split at h
    · next u hu =>
      cases h
      split at hu
      · next hr => exact ⟨rfl, hr, f, hf, SpoolFile.snapshot_eq_some.mpr hu⟩
      · cases hu
    · cases moved <;> cases h

/-- An entry that is read is left where it is. -/
theorem readPending_of_find {name : String} (hf : s.find name = some f) (ht : f.snapshot L = some t)
    (moved : FileResult) : s.readPending L name true moved = (.ok (some t), s) := by
  simp [readPending, hf, SpoolFile.snapshot_eq_some.mp ht]

/-- A file that is gone is an error. -/
theorem readPending_of_gone {name : String} (hf : s.find name = none) (readable : Bool)
    (moved : FileResult) : s.readPending L name readable moved = (.error (), s) := by
  unfold readPending
  rw [hf]

/-- ... and the only one when nothing fails. -/
theorem find_of_readPending_error {name : String}
    (h : (s.readPending L name true .done).1 = .error ()) : s.find name = none := by
  unfold readPending at h
  split at h
  · next hf => exact hf
  · split at h <;> cases h

/-- What is not read is moved aside, or left where it is. -/
theorem readPending_spool (name : String) (readable : Bool) (moved : FileResult) :
    (s.readPending L name readable moved).2 = s ∨
      (s.readPending L name readable moved).2 = s.moveAside [name] ∧ moved.effective = true ∧
        ∃ f, s.find name = some f ∧ (readable = true → f.snapshot L = none) := by
  unfold readPending
  split
  · exact .inl rfl
  · next f hf =>
    split
    · exact .inl rfl
    · next e he =>
      by_cases heff : moved.effective = true
      · refine .inr ⟨if_pos heff, heff, f, hf, fun hr => ?_⟩
        rw [if_pos hr] at he
        rw [SpoolFile.snapshot, he]
        rfl
      · exact .inl (if_neg heff)

end Spool
/-! ## The order of the queue -/

/-- The newest pending entry. -/
def Spool.newest (s : Spool) : Option SpoolFile := s.pendingFiles.getLast?

theorem Spool.mem_pendingFiles : f ∈ s.pendingFiles ↔ f ∈ s.pending ∧ isSpoolFile f.name = true := by
  rw [Spool.pendingFiles, Stamped.mem_inOrder, List.mem_filter]

@[simp] theorem Spool.mem_without {names : List String} :
    f ∈ (s.without names).pending ↔ f ∈ s.pending ∧ f.name ∉ names := by
  simp [Spool.without]

@[simp] theorem Spool.pending_moveAside (names : List String) :
    (s.moveAside names).pending = (s.without names).pending := rfl

/-- Placing a file in a directory adds it, whatever the place. -/
theorem perm_place (files : List SpoolFile) (place : Nat) :
    (files.take place ++ f :: files.drop place).Perm (f :: files) := by
  have hmiddle : (files.take place ++ f :: files.drop place).Perm
      (f :: (files.take place ++ files.drop place)) := List.perm_middle
  rwa [List.take_append_drop] at hmiddle

theorem Spool.mem_write {time place : Nat} :
    f ∈ (s.write L snapshot time place).pending ↔
      f = entryFile L snapshot time ∨ f ∈ s.pending ∧ f.name ≠ entryName snapshot.snapshotId := by
  rw [Spool.write, (perm_place _ _).mem_iff, List.mem_cons, Spool.mem_without, List.mem_singleton]
  rfl

/-- What is left of a directory has distinct names. -/
theorem Spool.nodup_names_without (h : (s.pending.map SpoolFile.name).Nodup)
    (names : List String) : ((s.without names).pending.map SpoolFile.name).Nodup :=
  h.sublist (List.filter_sublist.map _)

/-- The file of a name is found by it. -/
theorem Spool.find_eq_some (h : (s.pending.map SpoolFile.name).Nodup) {name : String} :
    s.find name = some f ↔ f ∈ s.pending ∧ f.name = name := by
  constructor
  · intro hf
    exact ⟨List.mem_of_find?_eq_some hf, by simpa using List.find?_some hf⟩
  · rintro ⟨hf, rfl⟩
    cases hg : s.find f.name with
    | none =>
      have hnone := List.find?_eq_none.mp hg f hf
      simp at hnone
    | some g =>
      have hgmem : g ∈ s.pending := List.mem_of_find?_eq_some hg
      have hgname : g.name = f.name := by simpa using List.find?_some hg
      rw [List.inj_on_of_nodup_map h hgmem hf hgname]

/-- Writing takes the place of a file of the same name. -/
theorem Spool.nodup_names_write (h : (s.pending.map SpoolFile.name).Nodup) (time place : Nat) :
    ((s.write L snapshot time place).pending.map SpoolFile.name).Nodup := by
  have hperm := perm_place (f := entryFile L snapshot time)
    (s.without [entryName snapshot.snapshotId]).pending place
  refine (hperm.map SpoolFile.name).nodup_iff.mpr
    (List.nodup_cons.mpr ⟨?_, Spool.nodup_names_without h _⟩)
  rw [List.mem_map]
  rintro ⟨f, hf, hname⟩
  exact (Spool.mem_without.mp hf).2 (List.mem_singleton.mpr hname)

/-- **A queue in good order**: every file is an entry, and no two share a name
or a time. -/
structure Spool.Ordered (s : Spool) : Prop where
  entries : ∀ f ∈ s.pending, isSpoolFile f.name = true
  names : (s.pending.map SpoolFile.name).Nodup
  times : (s.pending.map SpoolFile.modified).Nodup

/-- Of a queue in good order the entries are all files. -/
theorem Spool.Ordered.pendingFiles (h : s.Ordered) :
    s.pendingFiles = Stamped.inOrder SpoolFile.modified s.pending := by
  rw [Spool.pendingFiles, List.filter_eq_self.mpr h.entries]

theorem Spool.Ordered.pendingFiles_eq_nil (h : s.Ordered) :
    s.pendingFiles = [] ↔ s.pending = [] := by
  rw [h.pendingFiles, Stamped.inOrder_eq_nil]

theorem Spool.Ordered.newest (h : s.Ordered) :
    s.newest = Stamped.latest SpoolFile.modified s.pending := by
  rw [Spool.newest, h.pendingFiles, Stamped.latest]

theorem Spool.Ordered.newest_eq_none (h : s.Ordered) : s.newest = none ↔ s.pending = [] := by
  rw [h.newest, Stamped.latest_eq_none]

theorem Spool.Ordered.newest_eq_some (h : s.Ordered) :
    s.newest = some f ↔ f ∈ s.pending ∧ ∀ g ∈ s.pending, g.modified ≤ f.modified := by
  rw [h.newest, Stamped.latest_eq_some h.times]

/-- Two files of one name are one. -/
theorem Spool.Ordered.eq_of_name (h : s.Ordered) (hf : f ∈ s.pending) (hg : g ∈ s.pending)
    (hn : f.name = g.name) : f = g := List.inj_on_of_nodup_map h.names hf hg hn

/-- Two files of one time are one. -/
theorem Spool.Ordered.eq_of_time (h : s.Ordered) (hf : f ∈ s.pending) (hg : g ∈ s.pending)
    (ht : f.modified = g.modified) : f = g := List.inj_on_of_nodup_map h.times hf hg ht

/-- The file of a name is found by it. -/
theorem Spool.Ordered.find_eq_some (h : s.Ordered) {name : String} :
    s.find name = some f ↔ f ∈ s.pending ∧ f.name = name := Spool.find_eq_some h.names

theorem Spool.Ordered.without (h : s.Ordered) (names : List String) : (s.without names).Ordered := by
  have hsub : (s.without names).pending.Sublist s.pending := List.filter_sublist
  exact ⟨fun f hf => h.entries f (hsub.subset hf), Spool.nodup_names_without h.names names,
    h.times.sublist (hsub.map _)⟩

/-- Writing an entry later than all others keeps the queue in good order. -/
theorem Spool.Ordered.write (h : s.Ordered) {time : Nat} (place : Nat)
    (hlater : ∀ f ∈ s.pending, f.modified < time) : (s.write L snapshot time place).Ordered := by
  have hothers := h.without [entryName snapshot.snapshotId]
  have hperm := perm_place (f := entryFile L snapshot time)
    (s.without [entryName snapshot.snapshotId]).pending place
  refine ⟨fun f hf => ?_, Spool.nodup_names_write h.names time place, ?_⟩
  · rcases Spool.mem_write.mp hf with rfl | ⟨hf, -⟩
    · exact isSpoolFile_entryName _
    · exact h.entries f hf
  · refine (hperm.map SpoolFile.modified).nodup_iff.mpr (List.nodup_cons.mpr ⟨?_, hothers.times⟩)
    rw [List.mem_map]
    rintro ⟨f, hf, htime⟩
    exact absurd htime (hlater f (Spool.mem_without.mp hf).1).ne

/-- The loop of `enforce_limit` stops before the last entry. -/
theorem evictions_eq_take (maxEntries total : Nat) (entries : List SpoolFile) :
    ∃ n, n + 1 ≤ max entries.length 1 ∧
      Spool.evictions maxEntries entries.length total entries = entries.take n := by
  induction entries generalizing total with
  | nil => exact ⟨0, by simp, rfl⟩
  | cons entry rest ih =>
    rw [Spool.evictions]
    split
    · exact ⟨0, by simp, rfl⟩
    · split
      · exact ⟨0, by simp, rfl⟩
      · next hmore =>
        obtain ⟨n, hn, htake⟩ := ih (total - entry.size)
        simp only [List.length_cons] at hmore ⊢
        refine ⟨n + 1, by omega, ?_⟩
        rw [Nat.add_sub_cancel, htake, List.take_succ_cons]

/-- Over the limit are some of the oldest entries, and not all. -/
theorem Spool.overLimit_eq_take (s : Spool) (maxEntries : Nat) :
    ∃ n, n + 1 ≤ max s.pendingFiles.length 1 ∧ s.overLimit maxEntries = s.pendingFiles.take n :=
  evictions_eq_take _ _ _

/-- Only files of the spool are over its limit. -/
theorem Spool.mem_of_mem_overLimit {maxEntries : Nat} (hf : f ∈ s.overLimit maxEntries) :
    f ∈ s.pending := by
  obtain ⟨n, -, htake⟩ := s.overLimit_eq_take maxEntries
  rw [htake] at hf
  exact (Spool.mem_pendingFiles.mp (List.take_subset _ _ hf)).1

/-- **The newest entry is never over the limit.** -/
theorem Spool.Ordered.newest_not_over (h : s.Ordered) (hf : s.newest = some f) (maxEntries : Nat) :
    f ∉ s.overLimit maxEntries := by
  obtain ⟨n, hn, htake⟩ := s.overLimit_eq_take maxEntries
  rw [htake, h.pendingFiles]
  rw [h.newest] at hf
  have hpos : 0 < s.pending.length := List.length_pos_of_mem (Stamped.latest_spec hf).1
  refine Stamped.latest_not_mem_take h.times hf ?_
  rw [h.pendingFiles, Stamped.length_inOrder] at hn
  omega

end Lariska
