import Lariska.Collectors
import Lariska.History
import Lariska.JsonObject
import Lariska.SnapshotDecoding

/-!
# When a source was last complete

A source that could not be read in full reports when it last could. That is
kept in a file of the state directory, which `reconcile_last_complete` reads,
brings up to date and writes again with every collection; nothing of it is kept
in memory, so that a process may be started again between two collections.

What is reported is then of the most recent earlier collection in which the
source was complete. A history that cannot be read counts as none, and is
written over.
-/

namespace Lariska

/-! ## The file -/

/-- The sources, in the order of a `BTreeMap`. -/
def SoftwareSource.all : List SoftwareSource :=
  [.apt, .dpkg, .rpm, .winreg, .msi, .brew, .pip, .npm, .java, .kb, .pacman, .macBundle, .other]

/-- A `BTreeMap` from sources to times. -/
abbrev SourceTimes := SoftwareSource → Option String

namespace SourceTimes

def empty : SourceTimes := fun _ => none

def members (times : SourceTimes) : List (String × Json.Scalar) :=
  SoftwareSource.all.filterMap fun source => (times source).map fun time => (source.asStr, .str time)

/-- `serde_json::to_vec`. -/
def toVec (times : SourceTimes) : Bytes := Json.document times.members

def insertMember (times : SourceTimes) (member : String × Json.Scalar) : Option SourceTimes := do
  let source ← SoftwareSource.ofStr member.1
  match member.2 with
  | .str time => some (Function.update times source (some time))
  | .nat _ => none

/-- `serde_json::from_slice`. -/
def fromSlice (bytes : Bytes) : Option SourceTimes := do
  let members ← Json.readObject bytes
  members.foldlM insertMember empty

end SourceTimes

/-- What becomes of the file when it is to be replaced. -/
inductive Stored where
  | replaced
  /-- The new one could not be written, or not be put in its place. -/
  | kept
  /-- The old one was removed, and then the new one not put in its place. -/
  | lost
deriving DecidableEq

/-- How the file can be read and written. -/
structure FileAccess where
  readable : Bool
  stored : Stored

/-- The history that is read: none where it cannot be. -/
def readSourceHistory (readable : Bool) (file : Option Bytes) : SourceTimes :=
  ((if readable then file else none).bind fun bytes =>
    if bytes.length > 64 * 1024 then none else SourceTimes.fromSlice bytes).getD .empty

/-! ## The code -/

/-- The body of the loop. -/
def reconcileSource (times : SourceTimes) (s : CollectionSource) : SourceTimes × CollectionSource :=
  if s.status = .complete then
    match s.lastCompleteAt with
    | some time => (Function.update times s.source (some time), s)
    | none => (times, s)
  else (times, { s with lastCompleteAt := times s.source })

def reconcileSources : SourceTimes → List CollectionSource → SourceTimes × List CollectionSource
  | times, [] => (times, [])
  | times, s :: rest =>
    let (times, s) := reconcileSource times s
    let (times, rest) := reconcileSources times rest
    (times, s :: rest)

/-- `reconcile_last_complete`: the file and the sources after it. -/
def reconcileLastComplete (access : FileAccess) (file : Option Bytes)
    (sources : List CollectionSource) : Option Bytes × List CollectionSource :=
  let (history, sources) := reconcileSources (readSourceHistory access.readable file) sources
  match access.stored with
  | .replaced => (some history.toVec, sources)
  | .kept => (file, sources)
  | .lost => (none, sources)

/-! ## Runs -/

/-- No time that is written in a text is longer. -/
def maxTimeBytes : Nat := 512

/-- A collection: what was found of each source, and how its history file can
be read and written. Each source is there once, and a complete one, be it new
or from the cache, has a time. -/
structure SourceCollection where
  sources : List CollectionSource
  access : FileAccess
  distinct : (sources.map (·.source)).Nodup
  dated : ∀ s ∈ sources, s.status = .complete →
    ∃ time, s.lastCompleteAt = some time ∧ time.utf8ByteSize ≤ maxTimeBytes

/-- A collection and the sources it reported. -/
abbrev Pass := SourceCollection × List CollectionSource

/-- Collections one after another. -/
def collections : List SourceCollection → List Pass → Option Bytes → List Pass
  | [], passes, _ => passes
  | c :: rest, passes, file =>
    let (file, sources) := reconcileLastComplete c.access file c.sources
    collections rest ((c, sources) :: passes) file

/-- The passes of a run in a new state directory, newest first. -/
def passesOf (run : List SourceCollection) : List Pass := collections run [] none

/-! ## The statement -/

/-- The time of a source, if it is complete among these. -/
def completeAt (sources : List CollectionSource) (source : SoftwareSource) : Option String :=
  (sources.find? fun s => s.source = source ∧ s.status = .complete).bind (·.lastCompleteAt)

/-- The time of the most recent of these collections in which the source was
complete. -/
def latestComplete (earlier : List Pass) (source : SoftwareSource) : Option String :=
  earlier.findSome? fun pass => completeAt pass.1.sources source

/-- **The sources of a collection are reported as they are**, those that are
not complete with the time of the most recent collection in which they were. -/
def Reconciled (pass : Pass) (earlier : List Pass) : Prop :=
  pass.2 = pass.1.sources.map fun s =>
    if s.status = .complete then s else { s with lastCompleteAt := latestComplete earlier s.source }

/-! ## Reading what was written -/

theorem SoftwareSource.mem_all (source : SoftwareSource) : source ∈ SoftwareSource.all := by
  cases source <;> decide

theorem insertMember_str (times : SourceTimes) (source : SoftwareSource) (time : String) :
    times.insertMember (source.asStr, .str time) = some (Function.update times source (some time)) := by
  unfold SourceTimes.insertMember
  dsimp only
  rw [SoftwareSource.ofStr_asStr]
  rfl

/-- The members of some sources are inserted one by one. -/
theorem foldlM_members (times start : SourceTimes) (sources : List SoftwareSource) :
    (sources.filterMap fun source => (times source).map fun time =>
        (source.asStr, Json.Scalar.str time)).foldlM SourceTimes.insertMember start
      = some fun source => if source ∈ sources then (times source).or (start source)
        else start source := by
  induction sources generalizing start with
  | nil => rfl
  | cons source sources ih =>
    rw [List.filterMap_cons]
    cases htime : times source with
    | none =>
      refine (ih start).trans (congrArg some (funext fun source' => ?_))
      by_cases hsource' : source' = source
      · subst hsource'
        rw [if_pos List.mem_cons_self, htime]
        exact ite_self _
      · simp only [List.mem_cons, hsource', false_or]
    | some time =>
      refine Eq.trans (List.foldlM_cons ..) ?_
      rw [insertMember_str]
      refine (ih _).trans (congrArg some (funext fun source' => ?_))
      by_cases hsource' : source' = source
      · subst hsource'
        rw [if_pos List.mem_cons_self, Function.update_self, htime]
        exact ite_self _
      · simp only [List.mem_cons, hsource', false_or, Function.update_of_ne hsource']

/-- **The history is read as it was written.** -/
theorem fromSlice_toVec (times : SourceTimes) : SourceTimes.fromSlice times.toVec = some times := by
  unfold SourceTimes.fromSlice SourceTimes.toVec
  rw [Json.readObject_document]
  refine (foldlM_members times .empty SoftwareSource.all).trans (congrArg some (funext fun source => ?_))
  rw [if_pos (SoftwareSource.mem_all source)]
  exact Option.or_none

theorem escapedSize_asStr (source : SoftwareSource) : Json.escapedSize source.asStr ≤ 10 := by
  cases source <;> decide

/-- There is room for a time of every source. -/
theorem length_toVec {times : SourceTimes}
    (h : ∀ source, ∀ time ∈ times source, time.utf8ByteSize ≤ maxTimeBytes) :
    times.toVec.length ≤ 64 * 1024 := by
  have hcount : times.members.length ≤ 13 := List.length_filterMap_le _ _
  have hmember : ∀ member ∈ times.members,
      Json.escapedSize member.1 + member.2.encode.length + 3 ≤ 4000 := by
    intro member hmember
    obtain ⟨source, -, hsource⟩ := List.mem_filterMap.mp hmember
    obtain ⟨time, htime, rfl⟩ := Option.map_eq_some_iff.mp hsource
    have hname := escapedSize_asStr source
    have hlength := (Json.escapedSize_le time).trans (Nat.mul_le_mul_left 6 (h source time htime))
    show Json.escapedSize source.asStr + (Json.str time).length + 3 ≤ 4000
    rw [Json.length_str]
    unfold maxTimeBytes at hlength
    omega
  unfold SourceTimes.toVec Json.document
  rw [Json.length_object, List.map_map, List.length_map]
  have hsum := List.sum_le_card_nsmul (times.members.map fun member =>
    Json.escapedSize member.1 + member.2.encode.length + 3) 4000 (by
      intro n hn
      obtain ⟨member, hmem, rfl⟩ := List.mem_map.mp hn
      exact hmember member hmem)
  rw [List.length_map, smul_eq_mul] at hsum
  have htotal : times.members.length * 4000 ≤ 13 * 4000 := Nat.mul_le_mul_right 4000 hcount
  have hfields : (times.members.map ((fun f => Json.escapedSize f.1 + f.2.length + 3) ∘
      fun m => (m.1, m.2.encode))).sum = (times.members.map fun member =>
        Json.escapedSize member.1 + member.2.encode.length + 3).sum := rfl
  omega

/-! ## One collection -/

variable {times : SourceTimes} {sources : List CollectionSource} {source : SoftwareSource}

theorem reconcileSource_of_ne {s : CollectionSource} (h : source ≠ s.source) :
    (reconcileSource times s).1 source = times source := by
  unfold reconcileSource
  split
  · split
    · exact Function.update_of_ne h _ _
    · rfl
  · rfl

theorem reconcileSource_snd (times : SourceTimes) (s : CollectionSource) :
    (reconcileSource times s).2
      = if s.status = .complete then s else { s with lastCompleteAt := times s.source } := by
  unfold reconcileSource
  split
  · split
    · rfl
    · rfl
  · rfl

/-- **The sources are reported with the times of the history**, as it was before
the loop. -/
theorem reconcileSources_sources (h : (sources.map (·.source)).Nodup) :
    (reconcileSources times sources).2 = sources.map fun s =>
      if s.status = .complete then s else { s with lastCompleteAt := times s.source } := by
  induction sources generalizing times with
  | nil => rfl
  | cons s rest ih =>
    obtain ⟨hhead, hrest⟩ := List.nodup_cons.mp h
    show (reconcileSource times s).2 :: (reconcileSources (reconcileSource times s).1 rest).2 = _
    rw [reconcileSource_snd, ih hrest, List.map_cons]
    congr 1
    refine List.map_congr_left fun s' hs' => ?_
    have hne : s'.source ≠ s.source := fun heq =>
      hhead (List.mem_map.mpr ⟨s', hs', heq⟩)
    rw [reconcileSource_of_ne hne]

/-- **The history after the loop** has the times of the sources that are
complete, and else those it had. -/
theorem reconcileSources_times (h : (sources.map (·.source)).Nodup) (source : SoftwareSource) :
    (reconcileSources times sources).1 source
      = (completeAt sources source).or (times source) := by
  induction sources generalizing times with
  | nil => rfl
  | cons s rest ih =>
    obtain ⟨hhead, hrest⟩ := List.nodup_cons.mp h
    show (reconcileSources (reconcileSource times s).1 rest).1 source = _
    by_cases hsource : source = s.source
    · -- The rest does not change it.
      subst hsource
      have hnone : completeAt rest s.source = none := by
        unfold completeAt
        rw [List.find?_eq_none.mpr, Option.bind_none]
        intro s' hs' hfound
        exact hhead (List.mem_map.mpr ⟨s', hs', (of_decide_eq_true hfound).1⟩)
      rw [ih hrest, hnone, Option.none_or]
      unfold reconcileSource
      by_cases hcomplete : s.status = .complete
      · have hfind : completeAt (s :: rest) s.source = s.lastCompleteAt := by
          unfold completeAt
          rw [List.find?_cons_of_pos (by simp [hcomplete]), Option.bind_some]
        rw [if_pos hcomplete, hfind]
        cases s.lastCompleteAt with
        | none => rfl
        | some time => exact Function.update_self s.source (some time) times
      · have hfind : completeAt (s :: rest) s.source = completeAt rest s.source := by
          unfold completeAt
          rw [List.find?_cons_of_neg (by simp [hcomplete])]
        rw [if_neg hcomplete, hfind, hnone]
        rfl
    · have hfind : completeAt (s :: rest) source = completeAt rest source := by
        unfold completeAt
        rw [List.find?_cons_of_neg (by simp [Ne.symm hsource])]
      rw [ih hrest, hfind, reconcileSource_of_ne hsource]

/-! ## Runs -/

/-- The file holds the times of these collections. -/
structure Holds (file : Option Bytes) (passes : List Pass) : Prop where
  read : readSourceHistory true file = latestComplete passes
  bounded : ∀ source, ∀ time ∈ latestComplete passes source, time.utf8ByteSize ≤ maxTimeBytes

theorem holds_nothing : Holds none [] := ⟨rfl, fun _ _ h => (by cases h)⟩

/-- A complete source has a time. -/
theorem bounded_completeAt (c : SourceCollection) {time : String}
    (h : time ∈ completeAt c.sources source) : time.utf8ByteSize ≤ maxTimeBytes := by
  obtain ⟨s, hfound, htime⟩ := Option.bind_eq_some_iff.mp h
  have hcomplete : s.source = source ∧ s.status = .complete := by
    simpa using List.find?_some hfound
  obtain ⟨time', htime', hbound⟩ := c.dated s (List.mem_of_find?_eq_some hfound) hcomplete.2
  rw [htime] at htime'
  exact Option.some.inj htime' ▸ hbound

/-- **One collection** reports the times of those before it, and leaves a file
that holds its own as well. -/
theorem reconcileLastComplete_reconciles {c : SourceCollection} {file : Option Bytes}
    {passes : List Pass} (h : Holds file passes) (hread : c.access.readable = true)
    (hstored : c.access.stored = .replaced) :
    Reconciled (c, (reconcileLastComplete c.access file c.sources).2) passes ∧
      Holds (reconcileLastComplete c.access file c.sources).1
        ((c, (reconcileLastComplete c.access file c.sources).2) :: passes) := by
  have hresult : reconcileLastComplete c.access file c.sources
      = (some (reconcileSources (latestComplete passes) c.sources).1.toVec,
        (reconcileSources (latestComplete passes) c.sources).2) := by
    unfold reconcileLastComplete
    rw [hread, h.read, hstored]
  have htimes : (reconcileSources (latestComplete passes) c.sources).1
      = latestComplete ((c, (reconcileSources (latestComplete passes) c.sources).2) :: passes) := by
    funext source
    rw [reconcileSources_times c.distinct]
    unfold latestComplete
    rw [List.findSome?_cons]
    cases completeAt c.sources source with
    | none => rfl
    | some time => rfl
  have hbounded : ∀ source, ∀ time ∈ (reconcileSources (latestComplete passes) c.sources).1 source,
      time.utf8ByteSize ≤ maxTimeBytes := by
    intro source time htime
    rw [reconcileSources_times c.distinct] at htime
    cases hat : completeAt c.sources source with
    | none =>
      rw [hat] at htime
      exact h.bounded source time htime
    | some time' =>
      rw [hat] at htime
      exact Option.some.inj htime ▸ bounded_completeAt c hat
  rw [hresult]
  refine ⟨reconcileSources_sources c.distinct, ?_, htimes ▸ hbounded⟩
  rw [← htimes]
  unfold readSourceHistory
  rw [if_pos rfl, Option.bind_some, if_neg (not_lt.mpr (length_toVec hbounded)), fromSlice_toVec]
  rfl

/-- The passes of a run, from any file that holds those before it. -/
theorem collections_reconcile {run : List SourceCollection} {file : Option Bytes}
    {passes : List Pass} (hrun : ∀ c ∈ run, c.access.readable = true ∧ c.access.stored = .replaced)
    (h : Holds file passes)
    (hpasses : ∀ later pass earlier, passes = later ++ pass :: earlier → Reconciled pass earlier) :
    ∀ later pass earlier, collections run passes file = later ++ pass :: earlier →
      Reconciled pass earlier := by
  induction run generalizing file passes with
  | nil => exact hpasses
  | cons c run ih =>
    obtain ⟨hread, hstored⟩ := hrun c List.mem_cons_self
    obtain ⟨hreconciled, hholds⟩ := reconcileLastComplete_reconciles h hread hstored
    exact ih (fun c' hc' => hrun c' (List.mem_cons_of_mem _ hc')) hholds
      (each_before_cons hreconciled hpasses)

/-- **A source that is not complete reports when it last was**, in every
collection of a run in which the history is read and written, and a complete
one is reported as it is. -/
theorem last_complete_reported {run : List SourceCollection}
    (hrun : ∀ c ∈ run, c.access.readable = true ∧ c.access.stored = .replaced) :
    ∀ later pass earlier, passesOf run = later ++ pass :: earlier → Reconciled pass earlier :=
  collections_reconcile hrun holds_nothing each_before_nil

/-! ## A history that is read, and one that is not -/

/-- A source that a collector has found has a time. -/
theorem CollectionSource.dated_new {now : String} {status : CollectionStatus} {code : Option String}
    (hnow : now.utf8ByteSize ≤ maxTimeBytes) (h : status = .complete) :
    ∃ time, (CollectionSource.new now source status code).lastCompleteAt = some time ∧
      time.utf8ByteSize ≤ maxTimeBytes :=
  ⟨now, if_pos h, hnow⟩

namespace Sample

/-- One source is looked at. -/
def collected (now : String) (hnow : now.utf8ByteSize ≤ maxTimeBytes) (status : CollectionStatus)
    (readable : Bool) : SourceCollection where
  sources := [.new now .pip status none]
  access := ⟨readable, .replaced⟩
  distinct := List.nodup_singleton _
  dated s hs hcomplete := by
    rw [List.mem_singleton] at hs
    subst hs
    exact CollectionSource.dated_new hnow hcomplete

def completeThenFailed (readable : Bool) : List SourceCollection :=
  [collected "2026-10-05T10:00:00Z" (by decide) .complete true,
    collected "2026-10-05T11:00:00Z" (by decide) .failed readable]

theorem outage_reports_last : ∃ pass earlier, passesOf (completeThenFailed true) = pass :: earlier ∧
    latestComplete earlier .pip = some "2026-10-05T10:00:00Z" ∧ Reconciled pass earlier :=
  ⟨_, _, rfl, rfl, @last_complete_reported (completeThenFailed true) (by decide) [] _ _ rfl⟩

/-- **The time of a source is lost**: every history is written, but one is not
read. -/
theorem unread_history_lost : (∀ c ∈ completeThenFailed false, c.access.stored = .replaced) ∧
    ∃ pass earlier, passesOf (completeThenFailed false) = pass :: earlier ∧
      latestComplete earlier .pip = some "2026-10-05T10:00:00Z" ∧ ¬ Reconciled pass earlier := by
  refine ⟨by decide, _, _, rfl, rfl, fun h => ?_⟩
  have htimes := congrArg (List.map (·.lastCompleteAt)) h
  cases htimes

end Sample

end Lariska
