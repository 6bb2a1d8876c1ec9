import Lariska.SupervisorReads

/-!
# What the supervisor writes

One rule for each operation that writes the private root: which step of the
transition system it takes, and what it leaves on disk and in the `journal`
variable when it returns and when it fails. Where the step's conditions
depend on the caller, the caller supplies them as a hypothesis.
-/

namespace Lariska

open Prog (lift need ensure attempt guarded)

variable (P : Platform) (Configs : Config → Prop)

/-! ## Runs so far -/

/-- The trace of the world is a history of the transition system. -/
def Valid (w : World) : Prop := Supervised P Configs w.trace w.host

variable {P Configs}

theorem Valid.calm {w w' : World} (h : Valid P Configs w) (hc : Calm w w') :
    Valid P Configs w' := hc.keeps P Configs h

theorem Valid.happen {w : World} {e : Event} (h : Valid P Configs w)
    (he : Permitted P Configs w.trace w.host e) : Valid P Configs (w.happen e) :=
  h.next ⟨he, rfl⟩

theorem Valid.cached {w : World} (h : Valid P Configs w) : w.host.Cached P :=
  cached_of_supervised h

theorem Valid.distinct {w : World} (h : Valid P Configs w) : w.host.Distinct :=
  distinct_of_supervised h

/-- The two documents, the installed package and the `journal` variable are
the same; package directories may differ. -/
structure SameDocs (w w' : World) : Prop where
  journal : w'.journal = w.journal
  onDisk : w'.host.journal = w.host.journal
  ledger : ∀ P : Platform, w'.host.ledger P = w.host.ledger P
  installed : w'.host.installed = w.host.installed

theorem Calm.sameDocs {w w' : World} (h : Calm w w') : SameDocs w w' :=
  ⟨h.journal, h.host_journal, h.host_ledger, h.installed⟩

namespace SameDocs

variable {w w' w'' : World}

theorem trans (h : SameDocs w w') (h' : SameDocs w' w'') : SameDocs w w'' :=
  ⟨h'.journal.trans h.journal, h'.onDisk.trans h.onDisk,
    fun P => (h'.ledger P).trans (h.ledger P), h'.installed.trans h.installed⟩

theorem madeDir (w : World) (name : String) : SameDocs w (w.happen (.madeDir name)) :=
  ⟨rfl, rfl, fun _ => rfl, rfl⟩

theorem filled (w : World) (name : String) (file : CacheFile) (bytes : Bytes) :
    SameDocs w (w.happen (.filled name file bytes)) := ⟨rfl, rfl, fun _ => rfl, rfl⟩

theorem removedDir (w : World) (name : String) : SameDocs w (w.happen (.removedDir name)) :=
  ⟨rfl, rfl, fun _ => rfl, rfl⟩

end SameDocs

/-! ## Package directories -/

section Directories

variable {w : World}

/-- What a program that only handles package directories leads to. -/
def KeepsDocs (P : Platform) (Configs : Config → Prop) (w w' : World) : Prop :=
  Valid P Configs w' ∧ SameDocs w w'

theorem KeepsDocs.calm {w' : World} (hv : Valid P Configs w) (hc : Calm w w') :
    KeepsDocs P Configs w w' := ⟨hv.calm hc, hc.sameDocs⟩

theorem KeepsDocs.trans {w' w'' : World} (h : SameDocs w w') (h' : KeepsDocs P Configs w' w'') :
    KeepsDocs P Configs w w'' := ⟨h'.1, h.trans h'.2⟩

/-- Removing a directory the journal on disk does not name. -/
theorem removeDir_leads {name : String} (hv : Valid P Configs w)
    (free : w.host.journal.names name = false) :
    (removeDir name).Leads w (fun _ => KeepsDocs P Configs w)
      (fun _ => KeepsDocs P Configs w) (Valid P Configs) := by
  refine perform_leads (fun w' hc => ⟨(hv.calm hc).happen (.removedDir ?_), ?_⟩)
    (fun _ _ hc => KeepsDocs.calm hv hc) (fun _ hc => hv.calm hc)
  · rw [hc.host_journal]
    exact free
  · exact hc.sameDocs.trans (SameDocs.removedDir w' name)

/-- Copying one file into such a directory. -/
theorem copyBounded_leads {source : Host → Option Bytes} {dest : String} {file : CacheFile}
    {limit : Nat} (hv : Valid P Configs w) (free : w.host.journal.names dest = false) :
    (copyBounded source dest file limit).Leads w (fun _ => KeepsDocs P Configs w)
      (fun _ => KeepsDocs P Configs w) (Valid P Configs) := by
  refine observes_inspect.then (fun h w₁ hc₁ _ => ?_) (fun _ _ hc => KeepsDocs.calm hv hc)
    (fun _ hc => hv.calm hc)
  refine observes_need.then (fun bytes w₂ hc₂ _ => ?_)
    (fun _ _ hc => KeepsDocs.calm hv (hc₁.trans hc)) (fun _ hc => hv.calm (hc₁.trans hc))
  have hc := hc₁.trans hc₂
  have hv₃ : Valid P Configs (w₂.happen (.filled dest file (bytes.take (limit + 1)))) :=
    (hv.calm hc).happen (.filled (by rw [hc.host_journal]; exact free) _ _)
  have hd₃ := hc.sameDocs.trans (SameDocs.filled w₂ dest file (bytes.take (limit + 1)))
  refine Prog.leads_bind.mpr (Prog.leads_modify.mpr ?_)
  refine observes_refuse.then (fun _ w₄ hc₄ _ => ?_)
    (fun _ _ hc' => (KeepsDocs.calm hv₃ hc').trans hd₃) (fun _ hc' => hv₃.calm hc')
  refine observes_step.then (fun _ w₅ hc₅ _ => ?_)
    (fun _ _ hc' => (KeepsDocs.calm hv₃ (hc₄.trans hc')).trans hd₃)
    (fun _ hc' => hv₃.calm (hc₄.trans hc'))
  exact (Prog.leads_pure _).mpr ((KeepsDocs.calm hv₃ (hc₄.trans hc₅)).trans hd₃)

/-- **`copy_request` makes a directory the journal does not name**: one that
it names exists. -/
theorem copyRequest_leads {manifest artifact : Host → Option Bytes} {dest : String}
    {maxBytes : Nat} (hv : Valid P Configs w) :
    (copyRequest manifest artifact dest maxBytes).Leads w
      (fun _ w' => KeepsDocs P Configs w w' ∧ w'.host.journal.names dest = false)
      (fun _ => KeepsDocs P Configs w) (Valid P Configs) := by
  refine observes_inspect.then (fun h w₁ hc₁ hh => ?_) (fun _ _ hc => KeepsDocs.calm hv hc)
    (fun _ hc => hv.calm hc)
  refine observes_refuse.then (fun _ w₂ hc₂ habsent => ?_)
    (fun _ _ hc => KeepsDocs.calm hv (hc₁.trans hc)) (fun _ hc => hv.calm (hc₁.trans hc))
  have hc := hc₁.trans hc₂
  have hv₂ := hv.calm hc
  have absent : w₂.host.cache dest = none := by
    rw [hc.host_cache, ← habsent, Host.cache, Host.cache, hh.1]
  have free : w₂.host.journal.names dest = false := by
    rw [Journal.names_eq_false]
    rintro r hr rfl
    obtain ⟨d, hd, -⟩ := hv₂.cached r hr
    rw [hd] at absent
    exact absurd absent (by simp)
  have hv₃ : Valid P Configs (w₂.happen (.madeDir dest)) := hv₂.happen (.madeDir absent)
  have hd₃ := hc.sameDocs.trans (SameDocs.madeDir w₂ dest)
  have free' : ∀ w', SameDocs (w₂.happen (.madeDir dest)) w' →
      w'.host.journal.names dest = false := by
    intro w' hd
    rw [hd.onDisk]
    exact free
  refine Prog.leads_bind.mpr (Prog.leads_modify.mpr (Prog.leads_guarded ?_))
  have cleanup : ∀ w', KeepsDocs P Configs (w₂.happen (.madeDir dest)) w' →
      (removeDir dest).Leads w' (fun _ => KeepsDocs P Configs w)
        (fun _ => KeepsDocs P Configs w) (Valid P Configs) := fun w' hk =>
    Prog.Leads.mono (removeDir_leads hk.1 (free' w' hk.2))
      (fun _ _ hk' => hk'.trans (hd₃.trans hk.2)) (fun _ _ hk' => hk'.trans (hd₃.trans hk.2))
      (fun _ h => h)
  refine Prog.leads_bind.mpr (Prog.Leads.mono (copyBounded_leads hv₃ (free' _ ⟨rfl, rfl,
    fun _ => rfl, rfl⟩)) (fun _ w₄ hk₄ => ?_) (fun _ _ hk => cleanup _ hk) (fun _ h => h))
  refine Prog.leads_bind.mpr (Prog.Leads.mono (copyBounded_leads hk₄.1 (free' _ hk₄.2))
    (fun _ w₅ hk₅ => ?_) (fun _ _ hk => cleanup _ (hk.trans hk₄.2)) (fun _ h => h))
  have hk₅' := hk₅.trans hk₄.2
  refine observes_step.then (fun _ w₆ hc₆ _ => ?_)
    (fun _ _ hc' => cleanup _ ((KeepsDocs.calm hk₅'.1 hc').trans hk₅'.2))
    (fun _ hc' => hk₅'.1.calm hc')
  have hk₆ := (KeepsDocs.calm hk₅'.1 hc₆).trans hk₅'.2
  exact (Prog.leads_pure _).mpr ⟨hk₆.trans hd₃, free' _ hk₆.2⟩

/-- The loop of `prune_cache`, when the variable names what the file does. -/
theorem pruneEntries_leads {journal : Journal} (names : List String) (hv : Valid P Configs w)
    (hj : w.host.journal.releases = journal.releases) :
    (pruneEntries journal names).Leads w (fun _ => KeepsDocs P Configs w)
      (fun _ => KeepsDocs P Configs w) (Valid P Configs) := by
  induction names generalizing w with
  | nil => exact (Prog.leads_pure _).mpr (KeepsDocs.calm hv (Calm.refl w))
  | cons name names ih =>
    have rest : ∀ w', KeepsDocs P Configs w w' →
        (pruneEntries journal names).Leads w' (fun _ => KeepsDocs P Configs w)
          (fun _ => KeepsDocs P Configs w) (Valid P Configs) := fun w' hk =>
      Prog.Leads.mono (ih hk.1 (by rw [hk.2.onDisk, hj])) (fun _ _ hk' => hk'.trans hk.2)
        (fun _ _ hk' => hk'.trans hk.2) (fun _ h => h)
    refine observes_step.then (fun _ w₁ hc₁ _ => ?_) (fun _ _ hc => KeepsDocs.calm hv hc)
      (fun _ hc => hv.calm hc)
    have hk₁ := KeepsDocs.calm hv hc₁
    dsimp only
    refine Prog.leads_ite (fun hname => ?_) (fun _ => rest w₁ hk₁)
    have free : w₁.host.journal.names name = false := by
      rw [Journal.names, hc₁.host_journal, hj]
      exact hname.1
    refine Prog.leads_bind.mpr (Prog.Leads.mono (removeDir_leads hk₁.1 free)
      (fun _ w₂ hk₂ => rest w₂ (hk₂.trans hk₁.2)) (fun _ _ hk => hk.trans hk₁.2) (fun _ h => h))

/-- `prune_cache`. -/
theorem pruneCache_leads (hv : Valid P Configs w)
    (hj : w.host.journal.releases = w.journal.releases) :
    pruneCache.Leads w (fun _ => KeepsDocs P Configs w)
      (fun _ => KeepsDocs P Configs w) (Valid P Configs) := by
  refine observes_inspect.then (fun h w₁ hc₁ _ => ?_) (fun _ _ hc => KeepsDocs.calm hv hc)
    (fun _ hc => hv.calm hc)
  refine observes_getJournal.then (fun journal w₂ hc₂ hjournal => ?_)
    (fun _ _ hc => KeepsDocs.calm hv (hc₁.trans hc)) (fun _ hc => hv.calm (hc₁.trans hc))
  have hk := KeepsDocs.calm hv (hc₁.trans hc₂)
  refine Prog.Leads.mono (pruneEntries_leads _ hk.1 ?_) (fun _ _ hk' => hk'.trans hk.2)
    (fun _ _ hk' => hk'.trans hk.2) (fun _ h => h)
  rw [hk.2.onDisk, hj, hjournal, hc₁.journal]

end Directories

/-! ## Receipts -/

section Receipts

variable {config : Config} {w : World}

/-- Pruning keeps what the floor does not reject. -/
theorem retained_eq_ok {l : UpdateLedger} {floor : P.Version}
    (hfloor : P.semver l.floorVersion = .ok floor) :
    ∀ {receipts kept : List ConsumedRequest},
      retained P floor l.floorSequence receipts = .ok kept →
      kept.Sublist receipts ∧
        ∀ r ∈ receipts, r ∈ kept ∨ l.Rejects P r.version r.sequence := by
  intro receipts
  induction receipts with
  | nil =>
    intro kept h
    cases h
    exact ⟨List.Sublist.refl _, by simp⟩
  | cons r rest ih =>
    intro kept h
    unfold retained at h
    split at h
    · exact absurd h (by simp)
    · next candidate hc =>
      obtain ⟨kept', hk, h⟩ := Except.bind_eq_ok.mp h
      obtain ⟨hsub, hrest⟩ := ih hk
      cases h
      split
      · refine ⟨hsub.cons_cons r, fun r' hr' => ?_⟩
        rcases List.mem_cons.mp hr' with rfl | hr'
        · exact .inl (List.mem_cons_self ..)
        · exact (hrest r' hr').imp_left (List.mem_cons_of_mem r)
      · next hnot =>
        refine ⟨hsub.cons r, fun r' hr' => ?_⟩
        rcases List.mem_cons.mp hr' with rfl | hr'
        · refine .inr ⟨floor, candidate, hfloor, hc, ?_⟩
          rw [not_and_or, ge_iff_le, not_le, ge_iff_le, not_le] at hnot
          exact hnot
        · exact hrest r' hr'

/-- **The receipts of the variable against those on disk**: what the variable
has lost, the floor rejects. A pruning whose write failed leaves the two so. -/
structure Ahead (P : Platform) (config : Config) (w : World) : Prop where
  active : w.journal.active = w.host.journal.active
  nodup : (w.journal.consumed.map ConsumedRequest.nonce).Nodup
  kept : ∀ r ∈ w.host.journal.consumed,
    r ∈ w.journal.consumed ∨ config.Prunes P (w.host.ledger P) r

theorem Ahead.sameDocs {w' : World} (h : Ahead P config w) (hd : SameDocs w w') :
    Ahead P config w' := by
  refine ⟨?_, ?_, ?_⟩
  · rw [hd.journal, hd.onDisk]
    exact h.active
  · rw [hd.journal]
    exact h.nodup
  · rw [hd.journal, hd.onDisk, hd.ledger]
    exact h.kept

/-- The variable read from disk is not ahead. -/
theorem Ahead.of_eq (hv : Valid P Configs w) (hj : w.journal = w.host.journal) :
    Ahead P config w := by
  refine ⟨by rw [hj], ?_, fun r hr => .inl (hj ▸ hr)⟩
  rw [hj]
  exact hv.distinct

/-- A journal with other receipts. -/
abbrev Journal.carrying (j : Journal) (consumed : List ConsumedRequest) : Journal :=
  ⟨j.active, j.pending, consumed⟩

/-- The world with another `journal` variable. -/
def World.holding (w : World) (j : Journal) : World := { w with journal := j }

@[simp] theorem World.holding_host (j : Journal) : (w.holding j).host = w.host := rfl

@[simp] theorem World.holding_journal (j : Journal) : (w.holding j).journal = j := rfl

@[simp] theorem World.holding_trace (j : Journal) : (w.holding j).trace = w.trace := rfl

theorem Valid.holding (h : Valid P Configs w) (j : Journal) : Valid P Configs (w.holding j) := h

/-- A calm stretch does not depend on the variable. -/
theorem Calm.holding {w' : World} (h : Calm w w') (j : Journal) :
    Calm (w.holding j) (w'.holding j) :=
  ⟨h.root, h.installed, rfl, h.reserved, h.lastAck, h.cleared, h.keeps⟩

/-- What is left when a receipt could not be recorded: the variable has other
receipts. -/
def Unrecorded (P : Platform) (config : Config) (w w' : World) : Prop :=
  ∃ consumed, Calm (w.holding (w.journal.carrying consumed)) w' ∧ Ahead P config w'

theorem Unrecorded.of_calm {w' : World} (ha : Ahead P config w) (hc : Calm w w') :
    Unrecorded P config w w' :=
  ⟨w.journal.consumed, hc, ha.sameDocs hc.sameDocs⟩

/-- **The pruning drops from the variable what the floor rejects**, and
changes nothing else. -/
theorem pruneReceipts_drops (hnone : config.updates.emergencyVersion = none) :
    (pruneReceipts P).Leads w
      (fun _ w' => ∃ consumed, Calm (w.holding (w.journal.carrying consumed)) w' ∧
        consumed.Sublist w.journal.consumed ∧
        ∀ r ∈ w.journal.consumed, r ∈ consumed ∨ config.Prunes P (w.host.ledger P) r)
      (fun _ => Calm w) (Calm w) := by
  refine (readLedger_observes P).then (fun l w₁ hc₁ hl => ?_) (fun _ _ hc => hc)
    (fun _ hc => hc)
  cases hf : P.semver l.floorVersion with
  | error e => exact (Prog.leads_fail _).mpr hc₁
  | ok floor =>
    refine observes_getJournal.then (fun j w₂ hc₂ hj => ?_) (fun _ _ hc => hc₁.trans hc)
      (fun _ hc => hc₁.trans hc)
    refine observes_lift.then (fun consumed w₃ hc₃ hkept => ?_)
      (fun _ _ hc => (hc₁.trans hc₂).trans hc) (fun _ hc => (hc₁.trans hc₂).trans hc)
    have hc := (hc₁.trans hc₂).trans hc₃
    have hj : j = w.journal := hj.trans hc₁.journal
    subst hj hl
    obtain ⟨hsub, hrest⟩ := retained_eq_ok hf hkept
    refine Prog.leads_modify.mpr ⟨consumed, hc.holding _, hsub, fun r hr => ?_⟩
    exact (hrest r hr).imp_right fun hrej => ⟨hnone, hrej⟩

/-- The pruning leaves a variable that is ahead. -/
theorem pruneReceipts_leads (ha : Ahead P config w)
    (hnone : config.updates.emergencyVersion = none) :
    (pruneReceipts P).Leads w
      (fun _ w' => ∃ consumed, Calm (w.holding (w.journal.carrying consumed)) w' ∧
        Ahead P config w' ∧ consumed.Sublist w.journal.consumed)
      (fun _ => Calm w) (Calm w) := by
  refine (pruneReceipts_drops hnone).imp fun _ w' ⟨consumed, hc, hsub, hdrops⟩ => ?_
  have hjournal : w'.journal = w.journal.carrying consumed := hc.journal
  have hdisk : w'.host.journal = w.host.journal := hc.host_journal
  refine ⟨consumed, hc, ⟨?_, ?_, fun r hr => ?_⟩, hsub⟩
  · rw [hjournal, hdisk]
    exact ha.active
  · rw [hjournal]
    exact ha.nodup.sublist (hsub.map _)
  · rw [hjournal, hc.host_ledger P]
    rcases ha.kept r (hdisk ▸ hr) with hr | hr
    · exact hdrops r hr
    · exact .inr hr

/-- **A receipt is on record**: found in the variable, or written with it. -/
structure Recorded (P : Platform) (Configs : Config → Prop) (accepting : Bool)
    (receipt : ConsumedRequest) (w w' : World) : Prop where
  valid : Valid P Configs w'
  active : w'.journal.active = w.journal.active
  pending : w'.journal.pending = w.journal.pending
  recorded : receipt ∈ w'.journal.consumed
  ledger : w'.host.ledger P = w.host.ledger P
  caches : ∀ name, w'.host.cache name = w.host.cache name
  installed : w'.host.installed = w.host.installed
  synced : w.journal = w.host.journal → w'.journal = w'.host.journal
  written : (∀ r ∈ w.journal.consumed, r.nonce ≠ receipt.nonce) →
    w'.journal = w'.host.journal ∧ (accepting = true → reserved w'.trace = some receipt)

/-- Pushing a receipt onto the variable leaves it ahead. -/
theorem Ahead.push {j : Journal} {consumed : List ConsumedRequest} {receipt : ConsumedRequest}
    (ha : Ahead P config w) (hj : w.journal = j.carrying consumed)
    (hnodup : ((consumed ++ [receipt]).map ConsumedRequest.nonce).Nodup) :
    Ahead P config (w.holding (j.carrying (consumed ++ [receipt]))) := by
  have hactive := ha.active
  have hkept := ha.kept
  rw [hj] at hactive hkept
  exact ⟨hactive, hnodup, fun r hr => (hkept r hr).imp_left (List.mem_append_left _)⟩

/-- A variable that is ahead may be written. -/
theorem Ahead.reserves {j : Journal} {receipt : ConsumedRequest} (ha : Ahead P config w)
    (hj : w.journal = j) (hmem : receipt ∈ j.consumed) : Reserves P config w.host receipt j := by
  subst hj
  exact ⟨ha.active, hmem, ha.nodup, ha.kept⟩

/-- The variable with a receipt pushed, just written. -/
theorem Recorded.of_written {accepting : Bool} {receipt : ConsumedRequest} {w' : World}
    {consumed : List ConsumedRequest}
    (hc : Calm w (w'.holding w.journal)) (hj : w'.journal = w.journal.carrying consumed)
    (hmem : receipt ∈ consumed)
    (hv : Valid P Configs (w'.happen (.wroteJournal (.reserve config accepting receipt)
      (w.journal.carrying consumed)))) :
    Recorded P Configs accepting receipt w (w'.happen (.wroteJournal
      (.reserve config accepting receipt) (w.journal.carrying consumed))) where
  valid := hv
  active := by rw [World.happen_journal, hj]
  pending := by rw [World.happen_journal, hj]
  recorded := by
    rw [World.happen_journal, hj]
    exact hmem
  ledger := hc.host_ledger P
  caches := hc.host_cache
  installed := hc.installed
  synced := fun _ => hj
  written := by
    refine fun _ => ⟨hj, ?_⟩
    rintro rfl
    rfl

/-- **`write_journal` writes the variable, or fails without a trace.** -/
theorem writeJournal_writes {why : JournalWrite} {K : Unit → World → Prop}
    {E : Fault → World → Prop} {D : World → Prop}
    (hK : ∀ w', Calm w w' → K () (w'.happen (.wroteJournal why w.journal)))
    (hE : ∀ fault w', Calm w w' → E fault w') (hD : ∀ w', Calm w w' → D w') :
    (writeJournal why).Leads w K E D := by
  refine observes_getJournal.then (fun j w₁ hc₁ hj => ?_) hE hD
  refine observes_refuse.then (fun _ w₂ hc₂ _ => ?_) (fun _ _ hc => hE _ _ (hc₁.trans hc))
    (fun _ hc => hD _ (hc₁.trans hc))
  have hc₂' := hc₁.trans hc₂
  subst hj
  exact perform_leads (fun w₃ hc₃ => hK w₃ (hc₂'.trans hc₃))
    (fun _ _ hc => hE _ _ (hc₂'.trans hc)) (fun _ hc => hD _ (hc₂'.trans hc))

theorem writeJournal_leads {why : JournalWrite} {K : Unit → World → Prop}
    {E : Fault → World → Prop} (hv : Valid P Configs w)
    (hK : ∀ w', Calm w w' → K () (w'.happen (.wroteJournal why w.journal)))
    (hE : ∀ fault w', Calm w w' → E fault w') :
    (writeJournal why).Leads w K E (Valid P Configs) :=
  writeJournal_writes hK hE fun _ hc => hv.calm hc

/-- The part of `remember_consumed_nonce` after the pruning. -/
theorem pushReceipt_leads {accepting : Bool} {receipt : ConsumedRequest}
    {consumed : List ConsumedRequest} {w₀ : World}
    (hv : Valid P Configs w) (ha : Ahead P config w)
    (hc : Calm (w₀.holding (w₀.journal.carrying consumed)) w)
    (hfresh : ∀ r ∈ consumed, r.nonce ≠ receipt.nonce)
    (hsub : consumed.Sublist w₀.journal.consumed)
    (permit : ∀ (w' : World) (j : Journal), Calm w₀ (w'.holding w₀.journal) → j.active = w₀.journal.active →
      j.pending = w₀.journal.pending →
      (∀ r ∈ j.consumed, r ∈ w₀.journal.consumed ∨ r = receipt) →
      Reserves P config w'.host receipt j →
      Permitted P Configs w'.trace w'.host
        (.wroteJournal (.reserve config accepting receipt) j)) :
    (do
      let journal ← getJournal
      refuse (journal.consumed.length < maxRequests)
        "native consumed request history is full; administrator repair is required before accepting another update"
      setJournal { journal with consumed := journal.consumed ++ [receipt] }
      writeJournal (.reserve config accepting receipt)).Leads w
      (fun _ => Recorded P Configs accepting receipt w₀) (fun _ => Unrecorded P config w₀)
      (Valid P Configs) := by
  have hj : w.journal = w₀.journal.carrying consumed := hc.journal
  have before : ∀ w', Calm w w' → Unrecorded P config w₀ w' := fun w' hc' =>
    ⟨consumed, hc.trans hc', ha.sameDocs hc'.sameDocs⟩
  refine observes_getJournal.then (fun journal w₁ hc₁ hjournal => ?_) (fun _ _ hc => before _ hc)
    (fun _ hc => hv.calm hc)
  refine observes_refuse.then (fun _ w₂ hc₂ _ => ?_) (fun _ _ hc => before _ (hc₁.trans hc))
    (fun _ hc => hv.calm (hc₁.trans hc))
  subst hjournal
  have hc' := hc₁.trans hc₂
  rw [hj]
  have hnodup : ((consumed ++ [receipt]).map ConsumedRequest.nonce).Nodup := by
    have hold := ha.nodup
    rw [hj] at hold
    rw [List.map_append, List.nodup_append]
    refine ⟨hold, by simp, ?_⟩
    rintro a ham b hbm rfl
    obtain ⟨r, hr, rfl⟩ := List.mem_map.mp ham
    exact hfresh r hr (by simpa using hbm)
  -- From here on the variable holds the new receipt; the file does not yet.
  refine Prog.leads_bind.mpr (Prog.leads_modify.mpr ?_)
  have hstart : Calm (w₀.holding (w₀.journal.carrying (consumed ++ [receipt])))
      (w₂.holding (w₀.journal.carrying (consumed ++ [receipt]))) :=
    (hc.trans hc').holding _
  have hahead : Ahead P config
      (w₂.holding (w₀.journal.carrying (consumed ++ [receipt]))) :=
    (ha.sameDocs hc'.sameDocs).push (hc'.journal.trans hj) hnodup
  have hv₂ := (hv.calm hc').holding (w₀.journal.carrying (consumed ++ [receipt]))
  refine writeJournal_leads hv₂ (fun w₃ hc₃ => ?_)
    (fun _ _ hc₃ => ⟨_, hstart.trans hc₃, hahead.sameDocs hc₃.sameDocs⟩)
  have hw₃ := hahead.sameDocs hc₃.sameDocs
  have hrule : Reserves P config w₃.host receipt
      (w₀.journal.carrying (consumed ++ [receipt])) :=
    hw₃.reserves hc₃.journal (List.mem_append_right _ (List.mem_singleton_self _))
  have hpushed : ∀ r ∈ (w₀.journal.carrying (consumed ++ [receipt])).consumed,
      r ∈ w₀.journal.consumed ∨ r = receipt := fun r hr =>
    (List.mem_append.mp hr).imp (fun hr => hsub.subset hr) (fun hr => List.mem_singleton.mp hr)
  have hcalm : Calm w₀ (w₃.holding w₀.journal) := (hstart.trans hc₃).holding w₀.journal
  exact Recorded.of_written hcalm hc₃.journal (List.mem_append_right _ (List.mem_singleton_self _))
    ((hv₂.calm hc₃).happen (permit w₃ _ hcalm rfl rfl hpushed hrule))

/-- **`remember_consumed_nonce` records a receipt or changes nothing on
disk.** The caller says why the write is one of the permitted steps. -/
theorem rememberConsumedNonce_leads {accepting : Bool} {receipt : ConsumedRequest}
    (hv : Valid P Configs w) (ha : Ahead P config w)
    (permit : ∀ (w' : World) (j : Journal), Calm w (w'.holding w.journal) → j.active = w.journal.active →
      j.pending = w.journal.pending →
      (∀ r ∈ j.consumed, r ∈ w.journal.consumed ∨ r = receipt) →
      Reserves P config w'.host receipt j →
      Permitted P Configs w'.trace w'.host
        (.wroteJournal (.reserve config accepting receipt) j)) :
    (rememberConsumedNonce P config accepting receipt).Leads w
      (fun _ => Recorded P Configs accepting receipt w) (fun _ => Unrecorded P config w)
      (Valid P Configs) := by
  have before : ∀ w', Calm w w' → Unrecorded P config w w' := fun _ hc =>
    Unrecorded.of_calm ha hc
  refine observes_refuse.then (fun _ w₁ hc₁ _ => ?_) (fun _ _ hc => before _ hc)
    (fun _ hc => hv.calm hc)
  refine observes_lift.then (fun _ w₂ hc₂ _ => ?_) (fun _ _ hc => before _ (hc₁.trans hc))
    (fun _ hc => hv.calm (hc₁.trans hc))
  have hc₂' := hc₁.trans hc₂
  refine observes_getJournal.then (fun journal w₃ hc₃ hjournal => ?_)
    (fun _ _ hc => before _ (hc₂'.trans hc)) (fun _ hc => hv.calm (hc₂'.trans hc))
  have hc₃' := hc₂'.trans hc₃
  have hjournal : journal = w.journal := hjournal.trans hc₂'.journal
  subst hjournal
  dsimp only
  cases hfind : w.journal.consumed.find? (fun r => r.nonce == receipt.nonce) with
  | some previous =>
    have hmem := List.mem_of_find?_eq_some hfind
    have hnonce : previous.nonce = receipt.nonce := by simpa using List.find?_some hfind
    refine Prog.Leads.mono (observes_refuse (w := w₃)) (fun _ w₄ h₄ => ?_)
      (fun _ _ hc => before _ (hc₃'.trans hc)) (fun _ hc => hv.calm (hc₃'.trans hc))
    have hc := hc₃'.trans h₄.1
    have hprevious : previous = receipt := by
      cases previous
      cases receipt
      simp_all
    refine ⟨hv.calm hc, congrArg _ hc.journal, congrArg _ hc.journal, ?_, hc.host_ledger P,
      hc.host_cache, hc.installed, fun hj => ?_, fun hfresh => absurd hnonce (hfresh _ hmem)⟩
    · rw [hc.journal, ← hprevious]
      exact hmem
    · rw [hc.journal, hc.host_journal, hj]
  | none =>
    have hfresh : ∀ r ∈ w.journal.consumed, r.nonce ≠ receipt.nonce := by
      simpa using hfind
    dsimp only
    refine Prog.leads_ite (fun hnone => ?_) (fun _ => ?_)
    · refine Prog.leads_bind.mpr (Prog.Leads.mono
        (pruneReceipts_leads (ha.sameDocs hc₃'.sameDocs) hnone) ?_
        (fun _ _ hc => before _ (hc₃'.trans hc)) (fun _ hc => hv.calm (hc₃'.trans hc)))
      rintro _ w₄ ⟨consumed, hc₄, ha₄, hsub⟩
      rw [hc₃'.journal] at hc₄ hsub
      have hc : Calm (w.holding (w.journal.carrying consumed)) w₄ := (hc₃'.holding _).trans hc₄
      exact pushReceipt_leads ((hv.holding _).calm hc) ha₄ hc
        (fun r hr => hfresh r (hsub.subset hr)) hsub permit
    · have hc : Calm (w.holding (w.journal.carrying w.journal.consumed)) w₃ := hc₃'
      exact pushReceipt_leads (hv.calm hc₃') (ha.sameDocs hc₃'.sameDocs) hc hfresh
        (List.Sublist.refl _) permit

end Receipts

/-! ## The transaction in the ledger -/

section Transaction

variable {config : Config} {w : World}

/-- The newest record of a history that has room for one. -/
theorem getLast_appendHistory {limit : Nat} (hlimit : 1 ≤ limit) (history : List HistoryEntry)
    (r : HistoryEntry) : (appendHistory limit history r).getLast? = some r := by
  unfold appendHistory
  have hlen : (history ++ [r]).length = history.length + 1 := by simp
  rw [hlen, List.drop_append_of_le_length (by omega), List.getLast?_append]
  simp

/-- A raised floor is higher, and reaches the release it was raised to. -/
theorem raiseFloor_eq_ok {l l' : UpdateLedger} {version : String} {sequence : Nat}
    (h : raiseFloor P l version sequence = .ok l') :
    l.FloorLe P l' ∧ l'.Covers P version sequence ∧ l'.history = l.history := by
  obtain ⟨candidate, hc, h⟩ := Except.bind_eq_ok.mp h
  obtain ⟨floor, hf, h⟩ := Except.bind_eq_ok.mp h
  have hc := (parseVersion_eq_ok.mp hc).2
  have hf := (parseVersion_eq_ok.mp hf).2
  cases h
  refine ⟨⟨fun a ha => ?_, le_max_left _ _⟩, ?_, rfl⟩
  · cases hf.symm.trans ha
    by_cases hgt : candidate > floor
    · exact ⟨candidate, by simpa [hgt] using hc, hgt.le⟩
    · exact ⟨floor, by simpa [hgt] using hf, le_refl _⟩
  · by_cases hgt : candidate > floor
    · exact ⟨candidate, candidate, by simpa [hgt] using hc, hc, le_refl _, le_max_right _ _⟩
    · exact ⟨floor, candidate, by simpa [hgt] using hf, hc, not_lt.mp hgt, le_max_right _ _⟩

/-- The same for the floor `seed` raises. -/
theorem seedFloor_eq_ok {l l' : UpdateLedger} {m : ReleaseManifest}
    (h : seedFloor P l m = .ok l') :
    l.FloorLe P l' ∧ l'.Covers P m.version m.sequence ∧ l'.history = l.history ∧
      l'.pending = l.pending := by
  unfold seedFloor at h
  cases hc : P.semver m.version with
  | error e => rw [hc] at h; cases h
  | ok candidate =>
    cases hf : P.semver l.floorVersion with
    | error e => rw [hc, hf] at h; cases h
    | ok floor =>
      rw [hc, hf] at h
      cases h
      refine ⟨⟨fun a ha => ?_, le_max_left _ _⟩, ?_, rfl, rfl⟩
      · cases hf.symm.trans ha
        by_cases hgt : candidate > floor
        · exact ⟨candidate, by simpa [hgt] using hc, hgt.le⟩
        · exact ⟨floor, by simpa [hgt] using hf, le_refl _⟩
      · by_cases hgt : candidate > floor
        · exact ⟨candidate, candidate, by simpa [hgt] using hc, hc, le_refl _, le_max_right _ _⟩
        · exact ⟨floor, candidate, by simpa [hgt] using hf, hc, not_lt.mp hgt,
            le_max_right _ _⟩

/-- A validated configuration keeps at least one record. -/
theorem UpdateConfig.one_le_historyLimit (h : config.updates.validate P = .ok ()) :
    1 ≤ config.updates.historyLimit := by
  obtain ⟨_, -, h⟩ := Except.bind_eq_ok.mp h
  obtain ⟨_, -, h⟩ := Except.bind_eq_ok.mp h
  obtain ⟨_, hl, -⟩ := Except.bind_eq_ok.mp h
  exact (require_eq_ok.mp hl).1

/-- **The ledger has closed a transaction** and nothing else has changed. -/
structure Closed (P : Platform) (Configs : Config → Prop) (nonce outcome : String)
    (w w' : World) : Prop where
  valid : Valid P Configs w'
  journal : w'.journal = w.journal
  onDisk : w'.host.journal = w.host.journal
  installed : w'.host.installed = w.host.installed
  finished : ∃ p, (w.host.ledger P).pending = some p ∧ p.nonce = nonce ∧
    (w'.host.ledger P).Finished p.receipt outcome
  floor : (w.host.ledger P).FloorLe P (w'.host.ledger P)

theorem Closed.calm {nonce outcome : String} {w' w'' : World}
    (h : Closed P Configs nonce outcome w w') (hc : Calm w' w'') :
    Closed P Configs nonce outcome w w'' where
  valid := h.valid.calm hc
  journal := hc.journal.trans h.journal
  onDisk := hc.host_journal.trans h.onDisk
  installed := hc.installed.trans h.installed
  finished := by
    rw [hc.host_ledger P]
    exact h.finished
  floor := by
    rw [hc.host_ledger P]
    exact h.floor

/-- **`finish_update` closes the pending transaction or changes nothing.**
The caller says why the record is one of the permitted steps. -/
theorem finishUpdate_leads {nonce reason : String} (healthy : Bool) (hv : Valid P Configs w)
    (sound : config.updates.validate P = .ok ())
    (permit : ∀ (w' : World) (p : PendingUpdate) (now : Nat) (l : UpdateLedger),
      Calm w w' → Closes P config w'.host p (p.record now healthy reason) l → p.nonce = nonce →
      (healthy = true → (w'.host.ledger P).FloorLe P l ∧ l.Covers P p.version p.sequence) →
      (healthy = false → (w'.host.ledger P).SameFloor l) →
      Permitted P Configs w'.trace w'.host
        (.wroteLedger (.record config (p.record now healthy reason)) l)) :
    (finishUpdate P config nonce healthy reason).Leads w
      (fun _ => Closed P Configs nonce (outcomeOf healthy) w) (fun _ => Calm w)
      (Valid P Configs) := by
  refine observes_lift.then (fun _ w₁ hc₁ _ => ?_) (fun _ _ hc => hc) (fun _ hc => hv.calm hc)
  refine (readLedger_observes P).then (fun ledger w₂ hc₂ hl => ?_)
    (fun _ _ hc => hc₁.trans hc) (fun _ hc => hv.calm (hc₁.trans hc))
  have hc₂' := hc₁.trans hc₂
  rw [hc₁.host_ledger P] at hl
  refine observes_need.then (fun p w₃ hc₃ hp => ?_)
    (fun _ _ hc => hc₂'.trans hc) (fun _ hc => hv.calm (hc₂'.trans hc))
  have hc₃' := hc₂'.trans hc₃
  refine observes_refuse.then (fun _ w₄ hc₄ hnonce => ?_)
    (fun _ _ hc => hc₃'.trans hc) (fun _ hc => hv.calm (hc₃'.trans hc))
  have hc₄' := hc₃'.trans hc₄
  refine observes_unixNow.then (fun now w₅ hc₅ _ => ?_)
    (fun _ _ hc => hc₄'.trans hc) (fun _ hc => hv.calm (hc₄'.trans hc))
  have hc₅' := hc₄'.trans hc₅
  refine observes_lift.then (fun raised w₆ hc₆ hraised => ?_)
    (fun _ _ hc => hc₅'.trans hc) (fun _ hc => hv.calm (hc₅'.trans hc))
  have hc₆' := hc₅'.trans hc₆
  subst hl
  -- The two ways the floor may have moved.
  have hup : healthy = true → (w.host.ledger P).FloorLe P raised ∧
      raised.Covers P p.version p.sequence ∧ raised.history = (w.host.ledger P).history := by
    rintro rfl
    exact raiseFloor_eq_ok hraised
  have hsame : healthy = false → raised = w.host.ledger P := by
    rintro rfl
    cases hraised
    rfl
  have hle : (w.host.ledger P).FloorLe P raised ∧
      raised.history = (w.host.ledger P).history := by
    cases healthy with
    | true => exact ⟨(hup rfl).1, (hup rfl).2.2⟩
    | false =>
      rw [hsame rfl]
      exact ⟨UpdateLedger.FloorLe.refl _, rfl⟩
  refine Prog.leads_bind.mpr (perform_leads (fun w₇ hc₇ => ?_)
    (fun _ _ hc => hc₆'.trans hc) (fun _ hc => hv.calm (hc₆'.trans hc)))
  have hc₇' := hc₆'.trans hc₇
  have hledger := hc₇'.host_ledger P
  have hcloses : Closes P config w₇.host p (p.record now healthy reason)
      (raised.close config.updates.historyLimit (p.record now healthy reason)) := by
    refine ⟨hledger ▸ hp, rfl, rfl, ?_, UpdateConfig.one_le_historyLimit sound⟩
    rw [hledger, ← hle.2]
    rfl
  have hpermit := permit w₇ p now _ hc₇' hcloses hnonce
    (fun hh => hledger ▸ ⟨⟨(hup hh).1.version, (hup hh).1.sequence⟩, (hup hh).2.1⟩)
    (fun hh => hledger ▸ hsame hh ▸ ⟨rfl, rfl⟩)
  have hvalid := (hv.calm hc₇').happen hpermit
  have hclosed : Closed P Configs nonce (outcomeOf healthy) w (w₇.happen
      (.wroteLedger (.record config (p.record now healthy reason))
        (raised.close config.updates.historyLimit (p.record now healthy reason)))) :=
    ⟨hvalid, hc₇'.journal, hc₇'.host_journal, hc₇'.installed,
      ⟨p, hp, hnonce, rfl, p.record now healthy reason,
        getLast_appendHistory (UpdateConfig.one_le_historyLimit sound) _ _, rfl, rfl⟩,
      hle.1.version, hle.1.sequence⟩
  refine Prog.Leads.mono (ignore_leads fun w' => ?_) (fun _ _ hc => hclosed.calm hc)
    (fun _ _ hf => hf.elim) (fun _ hc => hvalid.calm hc)
  refine observes_step.bind fun _ _ _ _ => ?_
  refine (observes_ignore fun _ => observes_mailbox _).bind fun _ _ _ _ => ?_
  exact observes_ignore fun _ => observes_mailbox _

/-- **The ledger has a transaction pending**, and nothing else has changed. -/
structure Opened (P : Platform) (Configs : Config → Prop) (receipt : ConsumedRequest)
    (w w' : World) : Prop where
  valid : Valid P Configs w'
  journal : w'.journal = w.journal
  onDisk : w'.host.journal = w.host.journal
  caches : ∀ name, w'.host.cache name = w.host.cache name
  installed : w'.host.installed = w.host.installed
  reserved : reserved w'.trace = reserved w.trace
  awaits : (w'.host.ledger P).Awaits receipt
  floor : (w.host.ledger P).SameFloor (w'.host.ledger P)

theorem Opened.calm {receipt : ConsumedRequest} {w' w'' : World}
    (h : Opened P Configs receipt w w') (hc : Calm w' w'') : Opened P Configs receipt w w'' where
  valid := h.valid.calm hc
  journal := hc.journal.trans h.journal
  onDisk := hc.host_journal.trans h.onDisk
  caches := fun name => (hc.host_cache name).trans (h.caches name)
  installed := hc.installed.trans h.installed
  reserved := hc.reserved.trans h.reserved
  awaits := by
    rw [hc.host_ledger P]
    exact h.awaits
  floor := by
    rw [hc.host_ledger P]
    exact h.floor

/-- A pending transaction written over the ledger on disk. -/
theorem Opened.of_written {why : LedgerWrite} {p : PendingUpdate} {w' : World}
    (hc : Calm w w')
    (hv : Valid P Configs (w'.happen (.wroteLedger why ((w.host.ledger P).awaiting p)))) :
    Opened P Configs p.receipt w
      (w'.happen (.wroteLedger why ((w.host.ledger P).awaiting p))) where
  valid := hv
  journal := hc.journal
  onDisk := hc.host_journal
  caches := hc.host_cache
  installed := hc.installed
  reserved := hc.reserved
  awaits := ⟨p, rfl, rfl⟩
  floor := ⟨rfl, rfl⟩

/-- **`commit_pending` opens a transaction**, and clears the mailbox before
it returns. -/
theorem commitPending_leads {m : ReleaseManifest} {nonce : String} (hv : Valid P Configs w)
    (permit : ∀ (w' : World) (p : PendingUpdate), Calm w w' → p.receipt = m.receipt nonce →
      Permitted P Configs w'.trace w'.host
        (.wroteLedger (.commit config p) ((w.host.ledger P).awaiting p))) :
    (commitPending P config m nonce).Leads w
      (fun _ w' => Opened P Configs (m.receipt nonce) w w' ∧ cleared w'.trace = true)
      (fun _ w' => Calm w w' ∨ Opened P Configs (m.receipt nonce) w w') (Valid P Configs) := by
  refine observes_lift.then (fun _ w₁ hc₁ _ => ?_) (fun _ _ hc => .inl hc)
    (fun _ hc => hv.calm hc)
  refine (readLedger_observes P).then (fun ledger w₂ hc₂ hl => ?_)
    (fun _ _ hc => .inl (hc₁.trans hc)) (fun _ hc => hv.calm (hc₁.trans hc))
  have hc₂' := hc₁.trans hc₂
  rw [hc₁.host_ledger P] at hl
  refine observes_refuse.then (fun _ w₃ hc₃ _ => ?_)
    (fun _ _ hc => .inl (hc₂'.trans hc)) (fun _ hc => hv.calm (hc₂'.trans hc))
  have hc₃' := hc₂'.trans hc₃
  refine observes_unixNow.then (fun now w₄ hc₄ _ => ?_)
    (fun _ _ hc => .inl (hc₃'.trans hc)) (fun _ hc => hv.calm (hc₃'.trans hc))
  have hc₄' := hc₃'.trans hc₄
  refine observes_need.then (fun deadline w₅ hc₅ _ => ?_)
    (fun _ _ hc => .inl (hc₄'.trans hc)) (fun _ hc => hv.calm (hc₄'.trans hc))
  have hc₅' := hc₄'.trans hc₅
  refine observes_step.then (fun _ w₆ hc₆ _ => ?_)
    (fun _ _ hc => .inl (hc₅'.trans hc)) (fun _ hc => hv.calm (hc₅'.trans hc))
  have hc₆' := hc₅'.trans hc₆
  subst hl
  refine Prog.leads_bind.mpr (perform_leads (fun w₇ hc₇ => ?_)
    (fun _ _ hc => .inl (hc₆'.trans hc)) (fun _ hc => hv.calm (hc₆'.trans hc)))
  have hc₇' := hc₆'.trans hc₇
  have hopened := Opened.of_written hc₇'
    ((hv.calm hc₇').happen (permit w₇ ⟨nonce, m.version, m.sequence, now, deadline⟩ hc₇' rfl))
  exact Prog.Leads.mono (publishPendingHealth_leads _)
    (fun _ _ h => ⟨hopened.calm h.1, h.2⟩) (fun _ _ hc => .inr (hopened.calm hc))
    (fun _ hc => hopened.valid.calm hc)

/-- **`arm_health` keeps the transaction pending**, whether or not it
succeeds. -/
theorem armHealth_leads {nonce : String} {receipt : ConsumedRequest} (hv : Valid P Configs w)
    (awaits : (w.host.ledger P).Awaits receipt)
    (enlisted : ∃ q, w.host.journal.pending = some q ∧ q.receipt = receipt) :
    (armHealth P config nonce).Leads w (fun _ => Opened P Configs receipt w)
      (fun _ => Opened P Configs receipt w) (Valid P Configs) := by
  obtain ⟨p₀, hp₀, hreceipt⟩ := awaits
  have before : ∀ w', Calm w w' → Opened P Configs receipt w w' := fun w' hc =>
    ⟨hv.calm hc, hc.journal, hc.host_journal, hc.host_cache, hc.installed, hc.reserved,
      ⟨p₀, by rw [hc.host_ledger P, hp₀], hreceipt⟩, by rw [hc.host_ledger P]; exact ⟨rfl, rfl⟩⟩
  refine observes_lift.then (fun _ w₁ hc₁ _ => ?_) (fun _ _ hc => before _ hc)
    (fun _ hc => hv.calm hc)
  refine (readLedger_observes P).then (fun ledger w₂ hc₂ hl => ?_)
    (fun _ _ hc => before _ (hc₁.trans hc)) (fun _ hc => hv.calm (hc₁.trans hc))
  have hc₂' := hc₁.trans hc₂
  rw [hc₁.host_ledger P] at hl
  refine observes_need.then (fun p w₃ hc₃ hp => ?_)
    (fun _ _ hc => before _ (hc₂'.trans hc)) (fun _ hc => hv.calm (hc₂'.trans hc))
  have hc₃' := hc₂'.trans hc₃
  refine observes_refuse.then (fun _ w₄ hc₄ _ => ?_)
    (fun _ _ hc => before _ (hc₃'.trans hc)) (fun _ hc => hv.calm (hc₃'.trans hc))
  have hc₄' := hc₃'.trans hc₄
  refine observes_unixNow.then (fun now w₅ hc₅ _ => ?_)
    (fun _ _ hc => before _ (hc₄'.trans hc)) (fun _ hc => hv.calm (hc₄'.trans hc))
  have hc₅' := hc₄'.trans hc₅
  refine observes_need.then (fun deadline w₆ hc₆ _ => ?_)
    (fun _ _ hc => before _ (hc₅'.trans hc)) (fun _ hc => hv.calm (hc₅'.trans hc))
  have hc₆' := hc₅'.trans hc₆
  subst hl
  cases hp₀.symm.trans hp
  refine Prog.leads_bind.mpr (perform_leads (fun w₇ hc₇ => ?_)
    (fun _ _ hc => before _ (hc₆'.trans hc)) (fun _ hc => hv.calm (hc₆'.trans hc)))
  have hc₇' := hc₆'.trans hc₇
  have harms : Arms P w₇.host p₀
      ((w.host.ledger P).awaiting { p₀ with startedAt := now, deadline }) := by
    refine ⟨?_, ?_, now, deadline, ?_⟩
    · rw [hc₇'.host_ledger P, hp₀]
    · rw [hc₇'.host_journal, hreceipt]
      exact enlisted
    · rw [hc₇'.host_ledger P]
  have hopened := Opened.of_written hc₇' ((hv.calm hc₇').happen (.arm harms))
  subst hreceipt
  refine Prog.leads_bind.mpr (Prog.Leads.mono (publishPendingHealth_leads _)
    (fun _ w₈ h => (Prog.leads_pure _).mpr (hopened.calm h.1))
    (fun _ _ hc => hopened.calm hc) (fun _ hc => hopened.valid.calm hc))

end Transaction

/-! ## The installer -/

section Installer

variable {w : World}

/-- **What a call of the installer leaves**: the private root and the variable
as they were, and the package installed when the call returns. -/
structure Handed (P : Platform) (Configs : Config → Prop) (w w' : World) : Prop where
  valid : Valid P Configs w'
  journal : w'.journal = w.journal
  root : w'.host.root = w.host.root

theorem Handed.calm {w' w'' : World} (h : Handed P Configs w w') (hc : Calm w' w'') :
    Handed P Configs w w'' :=
  ⟨h.valid.calm hc, hc.journal.trans h.journal, hc.root.trans h.root⟩

theorem Handed.host_journal {w' : World} (h : Handed P Configs w w') :
    w'.host.journal = w.host.journal := by
  rw [Host.journal, h.root, Host.journal]

theorem Handed.host_ledger {w' : World} (h : Handed P Configs w w') (P : Platform) :
    w'.host.ledger P = w.host.ledger P := by
  rw [Host.ledger, h.root, Host.ledger]

/-- Handing a verified directory to the installer. -/
theorem install_leads {site : Site} {config : Config} {m : ReleaseManifest}
    {directory : String} (hv : Valid P Configs w)
    (verified : w.host.Verified P config directory m)
    (permit : ∀ (w' : World) (bytes : Bytes) (effective : Bool), Calm w w' →
      config.Vouches P m bytes → Permitted P Configs w'.trace w'.host
        (.installing ⟨site, config, m, bytes, effective⟩)) :
    (install site config m directory).Leads w
      (fun _ w' => Handed P Configs w w' ∧ w'.host.installed = m)
      (fun _ => Handed P Configs w) (Valid P Configs) := by
  obtain ⟨d, artifact, hd, -, ha, vouched⟩ := verified
  have before : ∀ w', Calm w w' → Handed P Configs w w' := fun w' hc =>
    ⟨hv.calm hc, hc.journal, hc.root⟩
  refine observes_turn.then (fun t w₁ hc₁ _ => ?_) (fun _ _ hc => before _ hc)
    (fun _ hc => hv.calm hc)
  refine observes_get.then (fun w' w₂ hc₂ hw => ?_) (fun _ _ hc => before _ (hc₁.trans hc))
    (fun _ hc => hv.calm (hc₁.trans hc))
  have hc₂' := hc₁.trans hc₂
  refine observes_need.then (fun bytes w₃ hc₃ hbytes => ?_)
    (fun _ _ hc => before _ (hc₂'.trans hc)) (fun _ hc => hv.calm (hc₂'.trans hc))
  have hc₃' := hc₂'.trans hc₃
  have hbytes : bytes = artifact := by
    rw [hw, hc₁.host_cache, hd, Option.bind_some, ha] at hbytes
    exact (Option.some.inj hbytes).symm
  subst hbytes
  have handed : ∀ effective, Handed P Configs w
      (w₃.happen (.installing ⟨site, config, m, bytes, effective⟩)) := by
    intro effective
    refine ⟨(hv.calm hc₃').happen (permit w₃ bytes effective hc₃' vouched), hc₃'.journal, ?_⟩
    refine Eq.trans ?_ hc₃'.root
    cases effective <;> rfl
  have done : (happen (.installing ⟨site, config, m, bytes, true⟩)).Leads w₃
      (fun _ w' => Handed P Configs w w' ∧ w'.host.installed = m)
      (fun _ => Handed P Configs w) (Valid P Configs) :=
    Prog.leads_modify.mpr ⟨handed true, rfl⟩
  cases t.fate with
  | failed effective =>
    exact Prog.leads_bind.mpr (Prog.leads_modify.mpr ((Prog.leads_fail _).mpr (handed effective)))
  | done => exact done
  | killed => exact done

end Installer

end Lariska
