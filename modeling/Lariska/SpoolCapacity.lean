import Lariska.Spool

/-!
# The capacity of the spool

After every write `enforce_limit` removes the oldest entries until the spool
keeps to its two limits, or one entry is left. What it removes is the shortest
prefix of the queue after which that is so, and when a removal fails what is
gone is the beginning of that prefix.
-/

namespace Lariska

/-- How the removal of one entry ends: an error of `remove_file` leaves the file
where it is, one of `sync_parent_dir` comes after it is gone. -/
inductive Removal where
  | done
  | notRemoved (error : String)
  | notSynced (error : String)
deriving DecidableEq

/-- A text without its last characters. -/
def dropLast (n : Nat) (name : String) : String :=
  String.ofList (name.toList.take (name.toList.length - n))

/-- `snapshot_id_from_path`. -/
def snapshotIdFromName (name : String) : String :=
  if endsWith name ".json.zst" then dropLast 9 name
  else if endsWith name ".json" then dropLast 5 name
  else name

def SpoolFile.id (f : SpoolFile) : String := snapshotIdFromName f.name

namespace Spool

/-- The loop of `enforce_limit`, with the ids of the entries removed so far: how
it ends, and the entries it removes. -/
def enforce (removal : SpoolFile → Removal) (maxEntries : Nat) :
    Nat → Nat → List String → List SpoolFile → Except String (List String) × List SpoolFile
  | _, _, evicted, [] => (.ok evicted, [])
  | remaining, total, evicted, entry :: rest =>
    if remaining ≤ maxEntries ∧ total ≤ maxSpoolBytes then (.ok evicted, [])
    else if remaining ≤ 1 then (.ok evicted, [])
    else match removal entry with
      | .notRemoved error => (.error ("failed to evict spool entry: " ++ error), [])
      | .notSynced error => (.error error, [entry])
      | .done =>
        let (result, removed) :=
          enforce removal maxEntries (remaining - 1) (total - entry.size) (evicted ++ [entry.id]) rest
        (result, entry :: removed)

/-- `enforce_limit`, of a directory that can be listed. -/
def enforceLimit (removal : SpoolFile → Removal) (s : Spool) (maxEntries : Nat) :
    Except String (List String) × Spool :=
  let entries := s.pendingFiles
  if entries = [] then (.ok [], s)
  else
    let (result, removed) := enforce removal (max maxEntries 1) entries.length
      (entries.foldl (fun total entry => saturatingAdd total entry.size) 0) [] entries
    (result, s.without (removed.map SpoolFile.name))

/-! ## What is removed -/

/-- The bytes of some entries. -/
def bytesOf (entries : List SpoolFile) : Nat := (entries.map SpoolFile.size).sum

/-- **Within the limits**: no more entries and bytes than allowed, or a single
entry. -/
def Within (maxEntries : Nat) (entries : List SpoolFile) : Prop :=
  (entries.length ≤ max 1 maxEntries ∧ bytesOf entries ≤ maxSpoolBytes) ∨ entries.length = 1

instance (maxEntries : Nat) (entries : List SpoolFile) : Decidable (Within maxEntries entries) :=
  inferInstanceAs (Decidable (_ ∨ _))

variable {s : Spool} {maxEntries remaining total : Nat} {removal : SpoolFile → Removal}
variable {entries : List SpoolFile} {evicted : List String}

/-- Where every removal succeeds, the entries `evictions` names are removed. -/
theorem enforce_done
    (h : ∀ f ∈ evictions maxEntries remaining total entries, removal f = .done) :
    enforce removal maxEntries remaining total evicted entries
      = (.ok (evicted ++ (evictions maxEntries remaining total entries).map SpoolFile.id),
        evictions maxEntries remaining total entries) := by
  induction entries generalizing remaining total evicted with
  | nil => simp [enforce, evictions]
  | cons entry rest ih =>
    unfold evictions at h ⊢
    unfold enforce
    by_cases hfit : remaining ≤ maxEntries ∧ total ≤ maxSpoolBytes
    · simp [hfit]
    · by_cases hone : remaining ≤ 1
      · simp [hfit, hone]
      · simp only [hfit, hone, if_false] at h ⊢
        rw [h entry (by simp)]
        dsimp only
        rw [ih fun f hf => h f (List.mem_cons_of_mem _ hf)]
        simp

/-- Where one fails, what is gone is a prefix of them. -/
theorem enforce_failed (removal : SpoolFile → Removal) (evicted : List String)
    (h : ∃ f ∈ evictions maxEntries remaining total entries, removal f ≠ .done) :
    ∃ k error, k ≤ (evictions maxEntries remaining total entries).length ∧
      enforce removal maxEntries remaining total evicted entries
        = (.error error, (evictions maxEntries remaining total entries).take k) := by
  induction entries generalizing remaining total evicted with
  | nil => simp [evictions] at h
  | cons entry rest ih =>
    unfold evictions at h ⊢
    unfold enforce
    by_cases hfit : remaining ≤ maxEntries ∧ total ≤ maxSpoolBytes
    · simp [hfit] at h
    · by_cases hone : remaining ≤ 1
      · simp [hfit, hone] at h
      · simp only [hfit, hone, if_false] at h ⊢
        cases hr : removal entry with
        | notRemoved error => exact ⟨0, _, by simp, rfl⟩
        | notSynced error => exact ⟨1, _, by simp, rfl⟩
        | done =>
          obtain ⟨f, hf, hne⟩ := h
          have hrest : f ∈ evictions maxEntries (remaining - 1) (total - entry.size) rest := by
            rcases List.mem_cons.mp hf with rfl | hf
            · exact absurd hr hne
            · exact hf
          obtain ⟨k, error, hk, heq⟩ := ih (evicted ++ [entry.id]) ⟨f, hrest, hne⟩
          refine ⟨k + 1, error, by simpa using hk, ?_⟩
          dsimp only
          rw [heq, List.take_succ_cons]

/-- The saturating sum of the sizes is their sum where that fits. -/
theorem foldl_saturatingAdd (h : total + bytesOf entries < 2 ^ 64) :
    entries.foldl (fun total entry => saturatingAdd total entry.size) total
      = total + bytesOf entries := by
  induction entries generalizing total with
  | nil => rfl
  | cons entry rest ih =>
    have hsum : bytesOf (entry :: rest) = entry.size + bytesOf rest := List.sum_cons
    rw [hsum] at h ⊢
    rw [List.foldl_cons, saturatingAdd, Nat.min_eq_left (by omega), ih (by omega)]
    omega

/-- **What is removed is the shortest prefix** after which the rest keeps to the
limits. -/
theorem evictions_shortest (maxEntries : Nat) (entries : List SpoolFile) :
    ∃ n, evictions (max maxEntries 1) entries.length (bytesOf entries) entries = entries.take n ∧
      Within maxEntries (entries.drop n) ∧ (∀ m < n, ¬ Within maxEntries (entries.drop m)) ∧
      (entries ≠ [] → n < entries.length) := by
  induction entries with
  | nil => exact ⟨0, rfl, .inl ⟨by simp, by simp [bytesOf]⟩, by simp, by simp⟩
  | cons entry rest ih =>
    unfold evictions
    by_cases hfit : (entry :: rest).length ≤ max maxEntries 1 ∧ bytesOf (entry :: rest) ≤ maxSpoolBytes
    · refine ⟨0, by rw [if_pos hfit, List.take_zero], .inl ⟨?_, hfit.2⟩, by simp, by simp⟩
      rw [max_comm]
      exact hfit.1
    · by_cases hone : (entry :: rest).length ≤ 1
      · refine ⟨0, by rw [if_neg hfit, if_pos hone, List.take_zero], .inr ?_, by simp, by simp⟩
        simpa using hone
      · obtain ⟨n, heq, hwithin, hleast, hlt⟩ := ih
        have hne : rest ≠ [] := by
          rintro rfl
          simp at hone
        have hbytes : bytesOf (entry :: rest) - entry.size = bytesOf rest := by
          have hsum : bytesOf (entry :: rest) = entry.size + bytesOf rest := List.sum_cons
          omega
        refine ⟨n + 1, ?_, hwithin, ?_, fun _ => Nat.succ_lt_succ (hlt hne)⟩
        · rw [if_neg hfit, if_neg hone, hbytes, List.length_cons, Nat.add_sub_cancel, heq,
            List.take_succ_cons]
        · intro m hm
          cases m with
          | zero =>
            rintro (hin | hin)
            · rw [max_comm] at hin
              exact hfit hin
            · exact hone hin.le
          | succ m => exact hleast m (by omega)

/-- Filtering out the first of distinct names leaves the rest. -/
theorem filter_notMem (taken rest : List SpoolFile)
    (h : ((taken ++ rest).map SpoolFile.name).Nodup) :
    (taken ++ rest).filter (fun f => f.name ∉ taken.map SpoolFile.name) = rest := by
  rw [List.map_append, List.nodup_append] at h
  rw [List.filter_append, List.filter_eq_nil_iff.mpr, List.filter_eq_self.mpr, List.nil_append]
  · intro f hf
    have hne : f.name ∉ taken.map SpoolFile.name := fun hmem =>
      h.2.2 _ hmem _ (List.mem_map_of_mem hf) rfl
    simpa using hne
  · intro f hf
    simpa using ⟨f, hf, rfl⟩

/-- Removing the first entries of the queue leaves the others. -/
theorem pendingFiles_without (h : (s.pending.map SpoolFile.name).Nodup) (k : Nat) :
    (s.without ((s.pendingFiles.take k).map SpoolFile.name)).pendingFiles
      = s.pendingFiles.drop k := by
  have hnodup : (s.pendingFiles.map SpoolFile.name).Nodup := by
    have hperm := List.perm_insertionSort (fun a b => SpoolFile.modified a ≤ SpoolFile.modified b)
      (s.pending.filter fun f => isSpoolFile f.name)
    exact (hperm.map SpoolFile.name).nodup_iff.mpr (h.sublist (List.filter_sublist.map _))
  have hfilter : (s.without ((s.pendingFiles.take k).map SpoolFile.name)).pendingFiles
      = s.pendingFiles.filter fun f => f.name ∉ (s.pendingFiles.take k).map SpoolFile.name := by
    show Stamped.inOrder SpoolFile.modified (List.filter _ (List.filter _ s.pending)) = _
    rw [List.filter_comm, Stamped.inOrder_filter]
    rfl
  have hsplit := filter_notMem (s.pendingFiles.take k) (s.pendingFiles.drop k)
    (by rwa [List.take_append_drop])
  rwa [List.take_append_drop, ← hfilter] at hsplit

/-- **`enforce_limit` removes the shortest prefix of the queue** after which at
most the allowed entries and bytes remain, or one entry. It leaves an entry of
a spool that has one, and returns the ids in order; where a removal fails, the
entries gone are a prefix of that prefix. -/
theorem enforceLimit_shortest (s : Spool) (maxEntries : Nat)
    (hsum : bytesOf s.pendingFiles < 2 ^ 64) :
    ∃ n, Within maxEntries (s.pendingFiles.drop n) ∧
      (∀ m < n, ¬ Within maxEntries (s.pendingFiles.drop m)) ∧
      (s.pendingFiles ≠ [] → n < s.pendingFiles.length) ∧
      (∀ removal : SpoolFile → Removal, (∀ f ∈ s.pendingFiles.take n, removal f = .done) →
        s.enforceLimit removal maxEntries
          = (.ok ((s.pendingFiles.take n).map SpoolFile.id),
            s.without ((s.pendingFiles.take n).map SpoolFile.name))) ∧
      (∀ removal : SpoolFile → Removal, (∃ f ∈ s.pendingFiles.take n, removal f ≠ .done) →
        ∃ k ≤ n, ∃ error, s.enforceLimit removal maxEntries
          = (.error error, s.without ((s.pendingFiles.take k).map SpoolFile.name))) ∧
      ((s.pending.map SpoolFile.name).Nodup → ∀ k,
        (s.without ((s.pendingFiles.take k).map SpoolFile.name)).pendingFiles
          = s.pendingFiles.drop k) := by
  obtain ⟨n, heq, hwithin, hleast, hlt⟩ := evictions_shortest maxEntries s.pendingFiles
  have htotal : s.pendingFiles.foldl (fun total entry => saturatingAdd total entry.size) 0
      = bytesOf s.pendingFiles := by
    rw [foldl_saturatingAdd (by omega), Nat.zero_add]
  refine ⟨n, hwithin, hleast, hlt, ?_, ?_, pendingFiles_without⟩
  · intro removal hdone
    unfold enforceLimit
    by_cases hempty : s.pendingFiles = []
    · simp [hempty, Spool.without]
    · simp only [hempty, if_false, htotal]
      rw [enforce_done (by rwa [heq]), heq, List.nil_append]
  · rintro removal ⟨f, hf, hne⟩
    have hempty : s.pendingFiles ≠ [] := by
      intro hnil
      rw [hnil, List.take_nil] at hf
      cases hf
    obtain ⟨k, error, hk, hfailed⟩ := enforce_failed removal []
      (by rw [heq]; exact ⟨f, hf, hne⟩)
    rw [heq] at hk hfailed
    have hkn : k ≤ n := hk.trans (List.length_take_le _ _)
    refine ⟨k, hkn, error, ?_⟩
    unfold enforceLimit
    simp only [hempty, if_false, htotal]
    rw [hfailed, List.take_take, Nat.min_eq_left hkn]

end Spool

namespace Sample

/-- Three entries in the order of the directory, which is not theirs. -/
def threeEntries : Spool :=
  ⟨[⟨"snap-2.json.zst", 20, [0]⟩, ⟨"snap-1.json", 10, [0, 0]⟩, ⟨"snap-3.json.zst", 30, [0]⟩], []⟩

/-- Of three entries, one too many, a shortest prefix is removed. -/
theorem one_too_many : ∃ n, Spool.Within 2 (threeEntries.pendingFiles.drop n) ∧
    (∀ m < n, ¬ Spool.Within 2 (threeEntries.pendingFiles.drop m)) ∧
    threeEntries.enforceLimit (fun _ => .done) 2
      = (.ok ((threeEntries.pendingFiles.take n).map SpoolFile.id),
        threeEntries.without ((threeEntries.pendingFiles.take n).map SpoolFile.name)) := by
  obtain ⟨n, hwithin, hleast, -, hdone, -⟩ :=
    Spool.enforceLimit_shortest threeEntries 2 (by decide)
  exact ⟨n, hwithin, hleast, hdone _ fun _ _ => rfl⟩

/-- It is the oldest, whose name an older agent gave. -/
example : (threeEntries.enforceLimit (fun _ => .done) 2).1 = .ok ["snap-1"] := by decide +kernel

end Sample

end Lariska
