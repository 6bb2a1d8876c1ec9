import Lariska.Inventory

/-!
# Collector results

What a collector gives: entries, warnings, whether it saw everything, and the
state of its source. A run that is not complete is reported as failed or
partial, with the last of its warnings that is a diagnostic code, and the
results of the collectors are merged into one.
-/

namespace Lariska

/-- `CARGO_PKG_VERSION`. -/
def cargoPkgVersion : String := "0.5.0"

/-- `CollectionSource::new`, at a time. -/
def CollectionSource.new (now : String) (source : SoftwareSource) (status : CollectionStatus)
    (diagnosticCode : Option String) : CollectionSource where
  source := source
  status := status
  collectedAt := now
  lastCompleteAt := if status = .complete then some now else none
  collectorVersion := cargoPkgVersion
  diagnosticCode := diagnosticCode

structure CollectorResult where
  entries : List SoftwareEntry
  warnings : List String
  complete : Bool
  sources : List CollectionSource
deriving DecidableEq

namespace CollectorResult

/-- `default`. -/
def empty : CollectorResult := ⟨[], [], true, []⟩

/-- The status `with_source` gives the source. -/
def status (r : CollectorResult) : CollectionStatus :=
  if r.complete then .complete else if r.entries = [] then .failed else .partialResult

/-- The code it gives the source: of the warnings the last that is one. -/
def diagnosticCode (r : CollectorResult) : Option String :=
  if r.complete then none
  else some ((r.warnings.reverse.find? validDiagnosticCode).getD "collection_failed")

/-- `with_source`. -/
def withSource (now : String) (r : CollectorResult) (source : SoftwareSource) : CollectorResult :=
  { r with sources := r.sources ++ [.new now source r.status r.diagnosticCode] }

/-- `not_applicable`. -/
def notApplicable (now : String) (source : SoftwareSource) : CollectorResult :=
  { empty with sources := [.new now source .notApplicable none] }

/-- `failed`. -/
def failed (now : String) (source : SoftwareSource) (code : String) : CollectorResult :=
  { empty with
    complete := false
    warnings := [source.asStr ++ " collector failed: " ++ code]
    sources := [.new now source .failed (some code)] }

/-- `mark_failed`. -/
def markFailed (r : CollectorResult) (code : String) : CollectorResult :=
  { r with complete := false, warnings := r.warnings ++ [code] }

/-- `merge`. -/
def merge (r other : CollectorResult) : CollectorResult where
  entries := r.entries ++ other.entries
  warnings := r.warnings ++ other.warnings
  complete := r.complete && other.complete
  sources := r.sources ++ other.sources

/-- Results merged one after the other. -/
def merged (results : List CollectorResult) : CollectorResult := results.foldl merge empty

theorem foldl_merge (r : CollectorResult) (results : List CollectorResult) :
    (results.foldl merge r).entries = r.entries ++ results.flatMap CollectorResult.entries ∧
      (results.foldl merge r).sources = r.sources ++ results.flatMap CollectorResult.sources := by
  induction results generalizing r with
  | nil => simp
  | cons other results ih =>
    obtain ⟨hentries, hsources⟩ := ih (r.merge other)
    rw [List.foldl_cons, hentries, hsources]
    simp [merge]

@[simp] theorem merged_entries (results : List CollectorResult) :
    (merged results).entries = results.flatMap CollectorResult.entries :=
  (foldl_merge empty results).1

@[simp] theorem merged_sources (results : List CollectorResult) :
    (merged results).sources = results.flatMap CollectorResult.sources :=
  (foldl_merge empty results).2

end CollectorResult

/-! ## What a collector reports of its source -/

/-- The codes `failed` is called with. -/
def failureCodes : List String := ["collector_panicked", "collector_missing"]

/-- **The result of one source**: what it collected, of this source and not yet
identified, that it does not apply, or that it failed, each at some time. -/
inductive OfSource (source : SoftwareSource) : CollectorResult → Prop
  | withSource {now : String} {r : CollectorResult} (hnow : trim now ≠ []) (hnone : r.sources = [])
      (hown : ∀ e ∈ r.entries, e.source = source)
      (hnew : ∀ e ∈ r.entries, e.installationIdentity = none) :
      OfSource source (r.withSource now source)
  | notApplicable {now : String} (hnow : trim now ≠ []) :
      OfSource source (.notApplicable now source)
  | failed {now code : String} (hnow : trim now ≠ []) (hcode : code ∈ failureCodes) :
      OfSource source (.failed now source code)

/-- What is checked of a source. -/
structure CollectionSource.Sound (s : CollectionSource) : Prop where
  version : trim s.collectorVersion ≠ []
  collectedAt : trim s.collectedAt ≠ []
  code : ∀ code ∈ s.diagnosticCode, validDiagnosticCode code = true
  complete : s.status = .complete → s.lastCompleteAt ≠ none

theorem CollectionSource.sound_new {now : String} (hnow : trim now ≠ []) (source : SoftwareSource)
    (status : CollectionStatus) {code : Option String}
    (hcode : ∀ c ∈ code, validDiagnosticCode c = true) :
    (CollectionSource.new now source status code).Sound where
  version := show trim cargoPkgVersion ≠ [] by decide
  collectedAt := hnow
  code := hcode
  complete h := by
    have h : status = .complete := h
    simp [CollectionSource.new, h]

variable {source : SoftwareSource} {r : CollectorResult}

/-- The code of an incomplete run is a diagnostic code, whatever its warnings. -/
theorem CollectorResult.valid_diagnosticCode (r : CollectorResult) :
    ∀ code ∈ r.diagnosticCode, validDiagnosticCode code = true := by
  intro code hcode
  unfold CollectorResult.diagnosticCode at hcode
  split_ifs at hcode
  · cases hcode
  · obtain rfl : _ = code := Option.some_inj.mp hcode
    cases hf : r.warnings.reverse.find? validDiagnosticCode with
    | none => decide
    | some warning => exact List.find?_some hf

/-- A collector reports its own source, soundly, and entries of it only. -/
theorem OfSource.report (h : OfSource source r) :
    (∃ state : CollectionSource, r.sources = [state] ∧ state.source = source ∧ state.Sound) ∧
      ∀ e ∈ r.entries, e.source = source ∧ e.installationIdentity = none := by
  cases h with
  | @withSource now r hnow hnone hown hnew =>
    refine ⟨⟨_, ?_, rfl, CollectionSource.sound_new hnow source r.status r.valid_diagnosticCode⟩,
      fun e he => ⟨hown e he, hnew e he⟩⟩
    show r.sources ++ [_] = _
    rw [hnone, List.nil_append]
  | notApplicable hnow =>
    exact ⟨⟨_, rfl, rfl, CollectionSource.sound_new hnow source _ (by simp)⟩, by
      simp [CollectorResult.notApplicable, CollectorResult.empty]⟩
  | @failed now code hnow hcode =>
    have hvalid : ∀ code ∈ failureCodes, validDiagnosticCode code = true := by decide
    refine ⟨⟨_, rfl, rfl, CollectionSource.sound_new hnow source _ ?_⟩, by
      simp [CollectorResult.failed, CollectorResult.empty]⟩
    intro c hc
    obtain rfl : code = c := Option.some_inj.mp hc
    exact hvalid _ hcode

end Lariska
