import Lariska.Spool
import Lariska.SnapshotDecoding

/-!
# A spool entry is read back

`Spool::write` with the errors it can end in: the payload is too long, or one
of its calls fails. What it makes of a valid snapshot is read back as it was
and stays in the queue (`reads_back`), and so does the file an older agent left
there, which holds the same JSON as it is.
-/

namespace Lariska

variable {L : Libraries} {s : Spool} {f : SpoolFile} {snapshot : InventorySnapshot}

/-! ## Writing -/

/-- The calls of `write` that can fail. -/
inductive WriteCall where
  | create
  | startCompression
  | compress
  | finishCompression
  | sync
  | persist
  | syncParent (directory : String)

/-- The note on an error of a call. -/
def WriteCall.note : WriteCall → String
  | .create => "failed to create spool temp file: "
  | .startCompression => "failed to start compression: "
  | .compress => "failed to compress snapshot: "
  | .finishCompression => "failed to finish compression: "
  | .sync => "failed to sync spool entry: "
  | .persist => "failed to persist spool entry: "
  | .syncParent directory => "failed to sync spool directory " ++ directory ++ ": "

/-- By then the file has its name: before, there is only the temporary one,
which no operation on the queue looks at. -/
def WriteCall.persisted : WriteCall → Bool
  | .syncParent _ => true
  | _ => false

/-- `write`, where a call fails or none does. -/
def Spool.tryWrite (L : Libraries) (s : Spool) (snapshot : InventorySnapshot) (time place : Nat)
    (fault : Option (WriteCall × String)) : Except String Unit × Spool :=
  let payload := snapshot.toCanonicalJson
  if payload.length > maxSnapshotBytes then
    (.error ("snapshot " ++ snapshot.snapshotId ++ " is " ++ toString payload.length
      ++ " bytes, exceeding the " ++ toString maxSnapshotBytes ++ " byte spool entry limit"), s)
  else match fault with
    | some (call, error) =>
      (.error (call.note ++ error), if call.persisted then s.write L snapshot time place else s)
    | none => (.ok (), s.write L snapshot time place)

/-- A write that succeeds writes the entry. -/
theorem Spool.tryWrite_eq_ok {time place : Nat} {fault : Option (WriteCall × String)} {s' : Spool}
    (h : s.tryWrite L snapshot time place fault = (.ok (), s')) :
    s' = s.write L snapshot time place ∧ snapshot.toCanonicalJson.length ≤ maxSnapshotBytes := by
  unfold Spool.tryWrite at h
  dsimp only at h
  split at h
  · cases h
  · next hsize =>
    split at h
    · cases h
    · exact ⟨(congrArg Prod.snd h).symm, Nat.le_of_not_gt hsize⟩

/-- ... which it does if no call fails and the payload is within the limit. -/
theorem Spool.tryWrite_none (hsize : snapshot.toCanonicalJson.length ≤ maxSnapshotBytes)
    (time place : Nat) :
    s.tryWrite L snapshot time place none = (.ok (), s.write L snapshot time place) :=
  if_neg (Nat.not_lt.mpr hsize)

/-- The entry is found by its name, whatever else is in the directory. -/
theorem Spool.find_write (time place : Nat) :
    (s.write L snapshot time place).find (entryName snapshot.snapshotId)
      = some (entryFile L snapshot time) := by
  have hothers : ∀ g ∈ (s.without [entryName snapshot.snapshotId]).pending.take place,
      ¬(g.name == entryName snapshot.snapshotId) = true := by
    intro g hg
    have hname := (Spool.mem_without.mp (List.take_subset _ _ hg)).2
    simpa using hname
  unfold Spool.find Spool.write
  rw [List.find?_append, List.find?_eq_none.mpr hothers, Option.none_or]
  exact List.find?_cons_of_pos (beq_self_eq_true _)

/-! ## Reading -/

/-- What is read under a name is the snapshot, which stays in the queue. -/
def Spool.ReadsBack (L : Libraries) (s : Spool) (name : String) (snapshot : InventorySnapshot) :
    Prop :=
  ∀ moved, ∃ t, s.readPending L name true moved = (.ok (some t), s) ∧ t = snapshot ∧
    t.contentDigest L = snapshot.contentDigest L

theorem Spool.readsBack_of_find {name : String} (hf : s.find name = some f)
    (hsnapshot : f.snapshot L = some snapshot) : s.ReadsBack L name snapshot :=
  fun moved => ⟨snapshot, readPending_of_find hf hsnapshot moved, rfl, rfl⟩

/-- The version of a valid snapshot is a `u16`. -/
theorem schemaVersion_lt_of_validate (h : snapshot.validate L = .ok ()) :
    snapshot.schemaVersion < 2 ^ 16 := by
  unfold InventorySnapshot.validate demand at h
  by_cases hv : snapshot.schemaVersion = legacyInventorySchemaVersion ∨
      snapshot.schemaVersion = inventorySchemaVersion
  · rcases hv with hv | hv <;> rw [hv] <;> decide
  · rw [if_neg hv] at h
    cases h

/-- No name of an older agent says that the entry is compressed. -/
theorem endsWith_zst_legacyName (stem : String) : endsWith (legacyName stem) ".zst" = false := by
  rw [Bool.eq_false_iff]
  intro h
  obtain ⟨before, hbefore⟩ := List.isSuffixOf_iff_suffix.mp h
  have hlast := congrArg List.getLast? hbefore
  rw [legacyName, Json.bytes_append, List.getLast?_append_of_ne_nil _ (by decide),
    List.getLast?_append_of_ne_nil _ (by decide)] at hlast
  exact absurd hlast (by decide)

/-- ... and no document looks compressed: it starts with a brace. -/
theorem isZstdMagic_toCanonicalJson (snapshot : InventorySnapshot) :
    isZstdMagic snapshot.toCanonicalJson = false := by
  unfold isZstdMagic InventorySnapshot.toCanonicalJson Json.object
  rw [List.take_succ_cons]
  rfl

/-- The file of an older agent holds the snapshot whose JSON it is. -/
theorem snapshot_legacyFile {stem : String} (hname : f.name = legacyName stem)
    (hbytes : f.bytes = snapshot.toCanonicalJson) (hround : L.RoundTrips snapshot)
    (hvalid : snapshot.validate L = .ok ())
    (hsize : snapshot.toCanonicalJson.length ≤ maxSnapshotBytes) :
    f.snapshot L = some snapshot := by
  have hround : L.fromSlice snapshot.toCanonicalJson = .ok snapshot := hround
  rw [SpoolFile.snapshot_eq_some]
  have hplain : (endsWith f.name ".zst" || isZstdMagic f.bytes) = false := by
    rw [hname, hbytes, endsWith_zst_legacyName, isZstdMagic_toCanonicalJson, Bool.or_false]
  unfold readEntry SpoolFile.size
  rw [hplain, if_neg Bool.false_ne_true, hbytes, List.take_of_length_le (by omega)]
  show (do
    demand (snapshot.toCanonicalJson.length ≤ maxSnapshotBytes) _
    demand (snapshot.toCanonicalJson.length ≤ maxSnapshotBytes) _
    let t ← L.fromSlice snapshot.toCanonicalJson
    t.validate L
    pure t : Except String InventorySnapshot) = _
  rw [demand, demand, if_pos hsize, if_pos hsize, hround]
  show (do
    snapshot.validate L
    pure snapshot : Except String InventorySnapshot) = _
  rw [hvalid]
  rfl

/-- **An entry is read back as it was written**: a valid snapshot within the
limit after any write of it that succeeds, and under the name an older agent
gave it where its file holds the JSON. -/
theorem reads_back (hlossless : L.Lossless) (hserde : L.Deserializes)
    (hcompress : (L.compress snapshot.toCanonicalJson).length ≤ snapshot.toCanonicalJson.length)
    (hlabels : snapshot.LabelsSorted) (hvalid : snapshot.validate L = .ok ())
    (hsize : snapshot.toCanonicalJson.length ≤ maxSnapshotBytes) :
    (∀ (s s' : Spool) time place fault, s.tryWrite L snapshot time place fault = (.ok (), s') →
      s'.ReadsBack L (entryName snapshot.snapshotId) snapshot) ∧
    ∀ (s : Spool) (f : SpoolFile) stem, s.find (legacyName stem) = some f → f.bytes = snapshot.toCanonicalJson →
      s.ReadsBack L (legacyName stem) snapshot := by
  have hround : L.RoundTrips snapshot :=
    roundTrips_of_deserializes hserde hlabels (schemaVersion_lt_of_validate hvalid)
  constructor
  · intro s s' time place fault h
    obtain ⟨rfl, -⟩ := Spool.tryWrite_eq_ok h
    have hspoolable : snapshot.Spoolable L := ⟨hvalid, hround, hcompress.trans hsize⟩
    exact Spool.readsBack_of_find (Spool.find_write time place)
      (hspoolable.snapshot_entryFile hlossless hsize time)
  · intro s f stem hf hbytes
    have hname : f.name = legacyName stem := by simpa using List.find?_some hf
    exact Spool.readsBack_of_find hf (snapshot_legacyFile hname hbytes hround hvalid hsize)

/-! ## A full snapshot -/

namespace Sample

/-- Libraries that read the documents of snapshots. -/
def serde : Libraries :=
  { libraries [] [] with
    fromSlice := fun text =>
      ((Json.readDocument text).bind InventorySnapshot.ofValue).elim
        (.error "expected a snapshot") .ok }

theorem serde_deserializes : serde.Deserializes := by
  intro text value snapshot hvalue hsnapshot
  show ((Json.readDocument text).bind InventorySnapshot.ofValue).elim _ _ = _
  rw [hvalue, Option.bind_some, hsnapshot]
  rfl

/-- A snapshot with something in every field. -/
def workstation : InventorySnapshot :=
  ⟨1, "snap-7", "agent", "2026-01-01T00:00:00Z", "host \"7\"", some "linux", none, some "24.04",
    some "x86_64", "0.1.0", [("rack", "4"), ("site", "\\north")], [⟨.macHash, "00112233"⟩],
    [⟨"curl", some "8.5.0", none, some "amd64", .dpkg, none, none, some "dd46e28a", none,
      some .system, none⟩],
    ["rpm: not found"], [⟨.dpkg, .complete, "2026-01-01T00:00:00Z", none, "1", none⟩]⟩

/-- It is read back, from a new entry and from an old one. -/
theorem workstation_reads_back :
    Spool.ReadsBack serde ((⟨[], []⟩ : Spool).write serde workstation 7 0)
      (entryName "snap-7") workstation ∧
    Spool.ReadsBack serde ⟨[⟨legacyName "snap-7", 7, workstation.toCanonicalJson⟩], []⟩
      (legacyName "snap-7") workstation := by
  have hsmall : workstation.toCanonicalJson.length ≤ maxSnapshotBytes := by decide +kernel
  have hread := reads_back (L := serde) (fun _ _ => rfl) serde_deserializes (le_of_eq rfl)
    (by decide +kernel) (by decide +kernel) hsmall
  exact ⟨hread.1 ⟨[], []⟩ _ 7 0 none (Spool.tryWrite_none hsmall 7 0),
    hread.2 _ ⟨legacyName "snap-7", 7, workstation.toCanonicalJson⟩ "snap-7"
      (by decide +kernel) rfl⟩

end Sample

end Lariska
