import Lariska.JsonRecord
import Lariska.SourceHistory

/-!
# The cache of collector results

Each collector has a file in the state directory with its last complete result,
the fingerprint it was collected under, the version of the agent and the time.
A file that cannot be read, is too large or is no such document is removed, and
one of another version, of another fingerprint or out of date is left alone: in
either case the collector is run, and its result stored if it is complete.

The decoder of the file is a parameter, of which only the documents the agent
writes itself are of account here.
-/

namespace Lariska

open Json (Value Tree)

/-! ## The document -/

inductive CacheKind where
  | platform | python | nodejs | java
deriving DecidableEq

def CacheKind.fileName : CacheKind → String
  | .platform => "platform.json"
  | .python => "python.json"
  | .nodejs => "nodejs.json"
  | .java => "java.json"

structure CachedCollector where
  formatVersion : Nat
  agentVersion : String
  fingerprint : String
  storedAtUnixSecs : UInt64
  result : CollectorResult
deriving DecidableEq

def cacheFormatVersion : Nat := 2

def maxCacheBytes : Nat := 16 * 1024 * 1024

def CollectorResult.json (r : CollectorResult) : Bytes :=
  Json.object [
    ("entries", Json.array (r.entries.map SoftwareEntry.json)),
    ("warnings", Json.array (r.warnings.map Json.str)),
    ("complete", Json.flag r.complete),
    ("sources", Json.array (r.sources.map CollectionSource.json))]

/-- `serde_json::to_vec`. -/
def CachedCollector.toVec (c : CachedCollector) : Bytes :=
  Json.object [
    ("format_version", Json.nat c.formatVersion),
    ("agent_version", Json.str c.agentVersion),
    ("fingerprint", Json.str c.fingerprint),
    ("stored_at_unix_secs", Json.nat c.storedAtUnixSecs.toNat),
    ("result", c.result.json)]

/-! ## The cache -/

/-- The files of the directory of the cache, by name. -/
abbrev CacheFiles := String → Option Bytes

inductive CacheError where
  | unreadable | exceeds | malformed
deriving DecidableEq

/-- How a file of the cache can be used. -/
structure CacheAccess where
  readable : Bool
  removable : Bool
  stored : Stored

/-- `cache_expired`, at a time. -/
def cacheExpired (now storedAt maxAge : UInt64) : Bool :=
  storedAt > now || now - storedAt ≥ maxAge

section Cache

variable (fromSlice : Bytes → Option CachedCollector)

/-- `load`, of an agent of some version, at a time. -/
def load (version : String) (maxAge now : UInt64) (access : CacheAccess) (kind : CacheKind)
    (fingerprint : String) (files : CacheFiles) : Except CacheError (Option CollectorResult) :=
  if access.readable = false then .error .unreadable
  else match files kind.fileName with
    | none => .ok none
    | some bytes =>
      if bytes.length > maxCacheBytes then .error .exceeds
      else match fromSlice bytes with
        | none => .error .malformed
        | some cached =>
          if cached.formatVersion ≠ cacheFormatVersion ∨ cached.agentVersion ≠ version
              ∨ cached.fingerprint ≠ fingerprint ∨ cached.result.complete = false
              ∨ cacheExpired now cached.storedAtUnixSecs maxAge then .ok none
          else .ok (some cached.result)

/-- `load_or_miss`. -/
def loadOrMiss (version : String) (maxAge now : UInt64) (access : CacheAccess) (kind : CacheKind)
    (fingerprint : String) (files : CacheFiles) : Option CollectorResult × CacheFiles :=
  match load fromSlice version maxAge now access kind fingerprint files with
  | .ok hit => (hit, files)
  | .error _ => (none, if access.removable then Function.update files kind.fileName none else files)

/-- `store`, of which no failure is of account to the collection. -/
def store (version : String) (now : UInt64) (access : CacheAccess) (kind : CacheKind)
    (fingerprint : String) (result : CollectorResult) (files : CacheFiles) : CacheFiles :=
  if result.complete = false then files
  else
    let cached : CachedCollector := ⟨cacheFormatVersion, version, fingerprint, now, result⟩
    if cached.toVec.length > maxCacheBytes then files
    else match access.stored with
      | .replaced => Function.update files kind.fileName (some cached.toVec)
      | .kept => files
      | .lost => Function.update files kind.fileName none

/-! ## Collections -/

/-- A result whose fingerprint failed: it is not taken for complete. -/
def CollectorResult.fingerprintFailed (r : CollectorResult) : CollectorResult where
  entries := r.entries
  complete := false
  warnings := r.warnings ++ ["fingerprint_failed"]
  sources := r.sources.map fun s => { s with
    status := if r.entries = [] then .failed else .partialResult
    lastCompleteAt := none
    diagnosticCode := some "fingerprint_failed" }

/-- A collection of one kind. -/
structure CachedCall where
  kind : CacheKind
  /-- Of the agent. -/
  version : String
  maxAge : UInt64
  /-- The directory of the cache could be created, or was there. -/
  opened : Bool
  fingerprint : Option String
  loadedAt : UInt64
  storedAt : UInt64
  access : CacheAccess
  /-- What the collector gives, if it is run. -/
  collected : CollectorResult

namespace CachedCall

variable (call : CachedCall) (files : CacheFiles)

/-- The lookup: without a cache or a fingerprint there is none. -/
def lookup : Option CollectorResult × CacheFiles :=
  match call.opened, call.fingerprint with
  | true, some fingerprint =>
    loadOrMiss fromSlice call.version call.maxAge call.loadedAt call.access call.kind fingerprint files
  | _, _ => (none, files)

/-- ... and the update. -/
def update (result : CollectorResult) (files : CacheFiles) : CacheFiles :=
  match call.opened, call.fingerprint with
  | true, some fingerprint =>
    store call.version call.storedAt call.access call.kind fingerprint result files
  | _, _ => files

/-- `collect_platform_cached`: a fingerprint that fails is no reason to doubt
the result. -/
def collectPlatformCached : CollectorResult × CacheFiles :=
  match call.lookup fromSlice files with
  | (some hit, files) => (hit, files)
  | (none, files) => (call.collected, call.update call.collected files)

/-- `collect_runtime_cached`. -/
def collectRuntimeCached : CollectorResult × CacheFiles :=
  match call.lookup fromSlice files with
  | (some hit, files) => (hit, files)
  | (none, files) =>
    let result :=
      if call.fingerprint = none then call.collected.fingerprintFailed else call.collected
    (result, call.update result files)

def run : CollectorResult × CacheFiles :=
  match call.kind with
  | .platform => call.collectPlatformCached fromSlice files
  | _ => call.collectRuntimeCached fromSlice files

end CachedCall

end Cache

/-! ## What `serde` derives -/

namespace Field

variable {α : Type}

def u64 : Value → Option UInt64
  | .nat n => if n < 2 ^ 64 then some (UInt64.ofNat n) else none
  | _ => none

/-- A member that is a value. -/
def leaf (read : Value → Option α) : Tree → Option α
  | .value v => read v
  | _ => none

def bool : Tree → Option Bool
  | .flag b => some b
  | _ => none

/-- The members of a struct that has these fields, of which some are no values. -/
def record (names : List String) : Tree → Option (List (String × Tree))
  | .record members =>
    if (members.map Prod.fst).Nodup ∧ ∀ name ∈ members.map Prod.fst, name ∈ names then some members
    else none
  | _ => none

/-- A field of one that must be there. -/
def member (members : List (String × Tree)) (name : String) (read : Tree → Option α) :
    Option α := (members.lookup name).bind read

end Field

def CollectorResult.ofTree (t : Tree) : Option CollectorResult := do
  let m ← Field.record ["entries", "warnings", "complete", "sources"] t
  let entries ← Field.member m "entries" (Field.leaf (Field.vec SoftwareEntry.ofValue))
  let warnings ← Field.member m "warnings" (Field.leaf (Field.vec Field.string))
  let complete ← Field.member m "complete" Field.bool
  let sources ← (m.lookup "sources").elim (some [])
    (Field.leaf (Field.vec CollectionSource.ofValue))
  pure ⟨entries, warnings, complete, sources⟩

def CachedCollector.ofTree (t : Tree) : Option CachedCollector := do
  let m ← Field.record
    ["format_version", "agent_version", "fingerprint", "stored_at_unix_secs", "result"] t
  let formatVersion ← Field.member m "format_version" (Field.leaf Field.u16)
  let agentVersion ← Field.member m "agent_version" (Field.leaf Field.string)
  let fingerprint ← Field.member m "fingerprint" (Field.leaf Field.string)
  let storedAtUnixSecs ← Field.member m "stored_at_unix_secs" (Field.leaf Field.u64)
  let result ← Field.member m "result" CollectorResult.ofTree
  pure ⟨formatVersion, agentVersion, fingerprint, storedAtUnixSecs, result⟩

/-- **`from_slice` as documented**: a text that is a document of the fields is
read as them. -/
def CachedCollector.Deserializes (fromSlice : Bytes → Option CachedCollector) : Prop :=
  ∀ text tree cached, Json.readRecord text = some tree → CachedCollector.ofTree tree = some cached →
    fromSlice text = some cached

/-! ## The document is read back -/

def CollectorResult.tree (r : CollectorResult) : Tree :=
  .record [
    ("entries", .value (.array (r.entries.map fun e => .object e.members))),
    ("warnings", .value (.array (r.warnings.map .str))),
    ("complete", .flag r.complete),
    ("sources", .value (.array (r.sources.map fun s => .object s.members)))]

def CachedCollector.tree (c : CachedCollector) : Tree :=
  .record [
    ("format_version", .value (.nat c.formatVersion)),
    ("agent_version", .value (.str c.agentVersion)),
    ("fingerprint", .value (.str c.fingerprint)),
    ("stored_at_unix_secs", .value (.nat c.storedAtUnixSecs.toNat)),
    ("result", c.result.tree)]

open Json (IsTree)

theorem CollectorResult.isTree {depth : Nat} (r : CollectorResult) :
    IsTree (depth + 4) r.json r.tree := by
  refine .record (.cons ⟨rfl, .array (reads_map _ SoftwareEntry.reads)⟩
    (.cons ⟨rfl, .array (reads_map _ Json.Reads.str)⟩ (.cons ⟨rfl, .flag _⟩
    (.cons ⟨rfl, .array (reads_map _ CollectionSource.reads)⟩ .nil))))

theorem CachedCollector.isTree {depth : Nat} (c : CachedCollector) :
    IsTree (depth + 5) c.toVec c.tree := by
  refine .record (.cons ⟨rfl, .nat _⟩ (.cons ⟨rfl, .str _⟩ (.cons ⟨rfl, .str _⟩
    (.cons ⟨rfl, .nat _⟩ (.cons ⟨rfl, c.result.isTree⟩ .nil)))))

/-- A field that is there is read. -/
theorem Field.member_bind {α β : Type} {members : List (String × Tree)} {name : String} {t : Tree}
    {read : Tree → Option α} {x : α} {next : α → Option β} (h : members.lookup name = some t)
    (hread : read t = some x) : (Field.member members name read >>= next) = next x := by
  unfold Field.member
  rw [h, Option.bind_some, hread]
  rfl

theorem CollectorResult.ofTree_tree (r : CollectorResult) : ofTree r.tree = some r := by
  have hentries : Field.vec SoftwareEntry.ofValue (.array (r.entries.map fun e => .object e.members))
      = some r.entries := Field.vec_map _ fun e _ => e.ofValue_members
  have hwarnings : Field.vec Field.string (.array (r.warnings.map .str)) = some r.warnings :=
    Field.vec_map _ fun _ _ => rfl
  have hsources : Field.vec CollectionSource.ofValue
      (.array (r.sources.map fun s => .object s.members)) = some r.sources :=
    Field.vec_map _ fun s _ => s.ofValue_members
  show (Field.member _ "entries" _ >>= fun entries => Field.member _ "warnings" _ >>=
    fun warnings => Field.member _ "complete" _ >>= fun complete =>
      (Option.elim _ (some []) (Field.leaf (Field.vec CollectionSource.ofValue)) >>= fun sources =>
        pure (⟨entries, warnings, complete, sources⟩ : CollectorResult))) = some r
  rw [Field.member_bind rfl hentries, Field.member_bind rfl hwarnings,
    Field.member_bind (x := r.complete) rfl rfl]
  show (Field.vec CollectionSource.ofValue (.array _) >>= fun sources =>
    some (⟨r.entries, r.warnings, r.complete, sources⟩ : CollectorResult)) = some r
  rw [hsources]
  rfl

theorem CachedCollector.ofTree_tree {c : CachedCollector} (h : c.formatVersion < 2 ^ 16) :
    ofTree c.tree = some c := by
  have hversion : Field.u16 (.nat c.formatVersion) = some c.formatVersion := if_pos h
  have hstored : Field.u64 (.nat c.storedAtUnixSecs.toNat) = some c.storedAtUnixSecs := by
    refine (if_pos c.storedAtUnixSecs.toNat_lt).trans ?_
    rw [UInt64.ofNat_toNat]
  show (Field.member _ "format_version" _ >>= fun formatVersion =>
    Field.member _ "agent_version" _ >>= fun agentVersion =>
      Field.member _ "fingerprint" _ >>= fun fingerprint =>
        Field.member _ "stored_at_unix_secs" _ >>= fun storedAt =>
          Field.member _ "result" _ >>= fun result =>
            pure (⟨formatVersion, agentVersion, fingerprint, storedAt, result⟩ : CachedCollector))
    = some c
  rw [Field.member_bind rfl hversion, Field.member_bind (x := c.agentVersion) rfl rfl,
    Field.member_bind (x := c.fingerprint) rfl rfl, Field.member_bind rfl hstored,
    Field.member_bind rfl c.result.ofTree_tree]
  rfl

/-- **What is stored is read back.** -/
theorem CachedCollector.fromSlice_toVec {fromSlice : Bytes → Option CachedCollector}
    (h : Deserializes fromSlice) {c : CachedCollector} (hversion : c.formatVersion < 2 ^ 16) :
    fromSlice c.toVec = some c :=
  h _ _ _ c.isTree.document (ofTree_tree hversion)

/-! ## What is loaded -/

/-- A result is out of date from its time and its age on, and before its time. -/
theorem cacheExpired_eq_false {now storedAt maxAge : UInt64} :
    cacheExpired now storedAt maxAge = false ↔
      storedAt.toNat ≤ now.toNat ∧ now.toNat < storedAt.toNat + maxAge.toNat := by
  unfold cacheExpired
  rw [Bool.or_eq_false_iff, decide_eq_false_iff_not, decide_eq_false_iff_not, gt_iff_lt,
    UInt64.lt_iff_toNat_lt, not_lt]
  refine and_congr_right fun hle => ?_
  rw [ge_iff_le, UInt64.le_iff_toNat_le, UInt64.toNat_sub_of_le _ _ (UInt64.le_iff_toNat_le.mpr hle)]
  omega

namespace CachedCollector

/-- The result can be taken for a call. -/
def Current (c : CachedCollector) (version fingerprint : String) (maxAge now : UInt64) : Prop :=
  c.agentVersion = version ∧ c.fingerprint = fingerprint ∧
    c.storedAtUnixSecs.toNat ≤ now.toNat ∧ now.toNat < c.storedAtUnixSecs.toNat + maxAge.toNat

instance (c : CachedCollector) (version fingerprint : String) (maxAge now : UInt64) :
    Decidable (c.Current version fingerprint maxAge now) :=
  inferInstanceAs (Decidable (_ ∧ _ ∧ _ ∧ _))

/-- What `store` writes. -/
structure Written (c : CachedCollector) : Prop where
  formatVersion : c.formatVersion = cacheFormatVersion
  complete : c.result.complete = true
  fits : c.toVec.length ≤ maxCacheBytes

end CachedCollector

section Loaded

variable {fromSlice : Bytes → Option CachedCollector} {version fingerprint : String}
variable {maxAge now : UInt64} {access : CacheAccess} {kind : CacheKind} {files : CacheFiles}

/-- **A document that was written is loaded just for its version and its
fingerprint, and as long as it is not out of date.** -/
theorem load_written (hserde : CachedCollector.Deserializes fromSlice) {c : CachedCollector}
    (hc : c.Written) (hread : access.readable = true)
    (hfile : files kind.fileName = some c.toVec) :
    load fromSlice version maxAge now access kind fingerprint files
      = .ok (if c.Current version fingerprint maxAge now then some c.result else none) := by
  have hslice := CachedCollector.fromSlice_toVec hserde (c := c) (by
    rw [hc.formatVersion]
    decide)
  unfold load
  rw [if_neg (by rw [hread]; decide), hfile]
  dsimp only
  rw [if_neg (not_lt.mpr hc.fits), hslice]
  dsimp only
  by_cases hcurrent : c.Current version fingerprint maxAge now
  · refine (if_neg ?_).trans (congrArg Except.ok (if_pos hcurrent).symm)
    obtain ⟨hversion, hfingerprint, hfresh⟩ := hcurrent
    rintro (h | h | h | h | h)
    · exact h hc.formatVersion
    · exact h hversion
    · exact h hfingerprint
    · rw [hc.complete] at h
      cases h
    · rw [cacheExpired_eq_false.mpr hfresh] at h
      cases h
  · refine (if_pos ?_).trans (congrArg Except.ok (if_neg hcurrent).symm)
    by_contra hnone
    simp only [not_or, not_not, Bool.not_eq_true] at hnone
    obtain ⟨-, hversion, hfingerprint, -, hexpired⟩ := hnone
    exact hcurrent ⟨hversion, hfingerprint, cacheExpired_eq_false.mp hexpired⟩

/-- What `store` does to a file. -/
theorem store_cases (version : String) (now : UInt64) (access : CacheAccess) (kind : CacheKind)
    (fingerprint : String) (result : CollectorResult) (files : CacheFiles) :
    store version now access kind fingerprint result files = files ∨
      store version now access kind fingerprint result files
        = Function.update files kind.fileName none ∨
      ∃ c : CachedCollector, c = ⟨cacheFormatVersion, version, fingerprint, now, result⟩ ∧ c.Written ∧
        store version now access kind fingerprint result files
          = Function.update files kind.fileName (some c.toVec) := by
  unfold store
  split
  · exact .inl rfl
  · next hcomplete =>
    dsimp only
    split
    · exact .inl rfl
    · next hfits =>
      cases access.stored with
      | replaced =>
        exact .inr (.inr ⟨_, rfl, ⟨rfl, Bool.eq_true_of_not_eq_false hcomplete, not_lt.mp hfits⟩, rfl⟩)
      | kept => exact .inl rfl
      | lost => exact .inr (.inl rfl)

theorem CacheKind.fileName_inj {kind kind' : CacheKind} (h : kind.fileName = kind'.fileName) :
    kind = kind' := by
  revert h
  cases kind <;> cases kind' <;> decide

/-- **What is loaded after a complete result was stored**: of its own kind that
result, for the version and the fingerprint it was stored under and within its
age, and otherwise nothing; of another kind what was there before. -/
theorem load_store (hserde : CachedCollector.Deserializes fromSlice) {access' : CacheAccess}
    {version' fingerprint' : String} {maxAge now' : UInt64} {kind' : CacheKind}
    {result : CollectorResult} (hcomplete : result.complete = true)
    (hfits : (CachedCollector.mk cacheFormatVersion version fingerprint now result).toVec.length
      ≤ maxCacheBytes)
    (hstored : access.stored = .replaced) (hread : access'.readable = true) :
    load fromSlice version' maxAge now' access' kind' fingerprint'
        (store version now access kind fingerprint result files)
      = if kind' = kind then
          .ok (if version' = version ∧ fingerprint' = fingerprint ∧ now.toNat ≤ now'.toNat ∧
            now'.toNat < now.toNat + maxAge.toNat then some result else none)
        else load fromSlice version' maxAge now' access' kind' fingerprint' files := by
  have hstore : store version now access kind fingerprint result files
      = Function.update files kind.fileName
          (some (CachedCollector.mk cacheFormatVersion version fingerprint now result).toVec) := by
    unfold store
    rw [if_neg (by rw [hcomplete]; decide)]
    dsimp only
    rw [if_neg (not_lt.mpr hfits), hstored]
  rw [hstore]
  split
  · next hkind =>
    subst hkind
    rw [load_written hserde ⟨rfl, hcomplete, hfits⟩ hread (Function.update_self _ _ _)]
    refine congrArg Except.ok (if_congr ?_ rfl rfl)
    show _ ∧ _ ∧ _ ↔ _
    rw [eq_comm, @eq_comm _ fingerprint fingerprint']
  · next hkind =>
    unfold load
    rw [Function.update_of_ne fun hname => hkind (CacheKind.fileName_inj hname)]

end Loaded

namespace Sample

/-- A decoder of the documents of the cache. -/
def readCached (bytes : Bytes) : Option CachedCollector :=
  (Json.readRecord bytes).bind CachedCollector.ofTree

theorem readCached_deserializes : CachedCollector.Deserializes readCached := by
  intro text tree cached htree hcached
  unfold readCached
  rw [htree, Option.bind_some, hcached]

/-- No Python packages. -/
def noPython : CollectorResult := .notApplicable "2026-01-01T00:00:00Z" .pip

set_option maxRecDepth 4000 in
/-- An hour later the result is out of date. -/
theorem noPython_expired :
    load readCached cargoPkgVersion 3600 5600 ⟨true, true, .kept⟩ .python "f"
      (store cargoPkgVersion 2000 ⟨true, true, .replaced⟩ .python "f" noPython fun _ => none)
      = .ok none := by
  refine (load_store readCached_deserializes rfl ?_ rfl rfl).trans
    ((if_pos rfl).trans (congrArg Except.ok (if_neg ?_)))
  · decide
  · decide

end Sample

end Lariska
