import Lariska.SupervisorStep

/-!
# The package cache

Four pieces of code delete directories under the private root, with names
the endpoint's nonces partly choose. None of them ever touches a directory
the journal on disk names, so the packages a recovery needs – the active one
above all – are there and hold what was verified when they were stored.
-/

namespace Lariska

variable (P : Platform)

/-- Every release the journal names is in its directory. -/
def Host.Cached (h : Host) : Prop := ∀ r ∈ h.journal.releases, h.Stores P r

/-- No nonce has two receipts. -/
def Host.Distinct (h : Host) : Prop := (h.journal.consumed.map ConsumedRequest.nonce).Nodup

variable {P} {Configs : Config → Prop} {past : Past Host Event} {h : Host} {e : Event}

/-- Storing a release is a matter of its directory alone. -/
theorem Host.Stores.congr {h h' : Host} {r : CachedRelease}
    (hcache : h'.cache r.directory = h.cache r.directory) (hs : h.Stores P r) :
    h'.Stores P r := by
  obtain ⟨d, hd, holds⟩ := hs
  exact ⟨d, hcache.trans hd, holds⟩

/-- **No step touches a directory the journal names.** A directory that is
made did not exist; the ones filled or removed are not named. -/
theorem Permitted.cache_apply (he : Permitted P Configs past h e) (hcached : h.Cached P)
    {r : CachedRelease} (hr : r ∈ h.journal.releases) :
    (e.apply h).cache r.directory = h.cache r.directory := by
  rw [Event.cache_apply]
  cases he with
  | @madeDir name absent =>
    have hne : r.directory ≠ name := by
      rintro rfl
      obtain ⟨d, hd, -⟩ := hcached r hr
      rw [hd] at absent
      exact absurd absent (by simp)
    exact h.cache_makeDir_of_ne hne
  | filled free file bytes =>
    exact h.cache_fill_of_ne (Journal.names_eq_false.mp free r hr) file bytes
  | removedDir free => exact h.cache_removeDir_of_ne (Journal.names_eq_false.mp free r hr)
  | _ => rfl

/-- What is on disk when the journal is written stays stored. -/
theorem Host.Stores.setJournal {r : CachedRelease} (hs : h.Stores P r) (j : Journal) :
    (h.setJournal j).Stores P r := hs

/-- A journal that names nothing new keeps every release stored. -/
theorem Host.Cached.setJournal {j : Journal} (hcached : h.Cached P)
    (hj : ∀ r ∈ j.releases, r ∈ h.journal.releases ∨ h.Stores P r) :
    (h.setJournal j).Cached P := by
  intro r hr
  rcases hj r hr with hr | hr
  · exact hcached r hr
  · exact hr

/-- **The cache invariant is kept**: a release enters the journal when its
directory holds it, and no step touches it while the journal names it. -/
theorem Host.Cached.keep (hcached : h.Cached P) (he : Permitted P Configs past h e) :
    (e.apply h).Cached P := by
  -- The rules that write the journal come first; the others leave its names alone.
  have frame : (e.apply h).journal = h.journal → (e.apply h).Cached P := by
    intro hj r hr
    rw [hj] at hr
    exact (hcached r hr).congr (he.cache_apply hcached hr)
  cases he with
  | accept _ rule =>
    refine hcached.setJournal fun r hr => .inl ?_
    rw [Journal.mem_releases, rule.active, rule.pending] at hr
    rw [Journal.mem_releases]
    exact hr.imp_right (fun ⟨q, hq, _⟩ => absurd hq (by simp))
  | renew _ rule =>
    refine hcached.setJournal fun r hr => .inl ?_
    rw [Journal.mem_releases, rule.active, rule.pending] at hr
    rwa [Journal.mem_releases]
  | @enlist q rule =>
    refine hcached.setJournal fun r hr => ?_
    rw [Journal.mem_releases] at hr
    rcases hr with hr | ⟨q', hq', rfl⟩
    · exact .inl (Journal.mem_releases.mpr (.inl hr))
    · cases hq'
      exact .inr rule.stored
  | @rearm q pending startedAt =>
    refine hcached.setJournal fun r hr => .inl ?_
    rw [Journal.mem_releases] at hr ⊢
    refine hr.imp_right fun ⟨q', hq', hr⟩ => ⟨q, pending, ?_⟩
    cases hq'
    exact hr
  | @settle q outcome j rule =>
    refine hcached.setJournal fun r hr => .inl ?_
    rw [Journal.mem_releases, rule.journal] at hr
    rw [Journal.mem_releases]
    rcases hr with hr | ⟨q', hq', _⟩
    · simp only [Journal.settled] at hr
      split at hr
      · exact .inr ⟨q, rule.pending, Option.some.inj hr⟩
      · exact .inl hr
    · exact absurd hq' (by simp [Journal.settled])
  | @activate r' rule =>
    refine hcached.setJournal fun r hr => ?_
    rw [Journal.mem_releases] at hr
    rcases hr with hr | ⟨q', hq', hr⟩
    · cases hr
      exact .inr rule.stored
    · exact .inl (Journal.mem_releases.mpr (.inr ⟨q', hq', hr⟩))
  | _ => exact frame ((Event.journal_apply h _).trans rfl)

/-- The receipts stay distinct. -/
theorem Host.Distinct.keep (hd : h.Distinct) (he : Permitted P Configs past h e) :
    (e.apply h).Distinct := by
  unfold Host.Distinct at *
  rw [Event.journal_apply]
  cases he with
  | accept _ rule => exact rule.nodup
  | renew _ rule => exact rule.nodup
  | settle rule => rw [rule.journal]; exact hd
  | _ => exact hd

/-- Every release the journal names is stored, after every history. -/
theorem cached_of_supervised (hs : Supervised P Configs past h) : h.Cached P := by
  refine hs.invariant' (I := fun _ h => h.Cached P) ?_ ?_
  · intro h hf r hr
    rw [Host.journal, show h.root = ⟨none, none, []⟩ from hf, Journal.mem_releases] at hr
    exact absurd hr (by simp [Journal.empty])
  · rintro past h e _ hc ⟨he, rfl⟩
    exact hc.keep he

/-- Every nonce has one receipt, after every history. -/
theorem distinct_of_supervised (hs : Supervised P Configs past h) : h.Distinct := by
  refine hs.invariant' (I := fun _ h => h.Distinct) ?_ ?_
  · intro h hf
    rw [Host.Distinct, Host.journal, show h.root = ⟨none, none, []⟩ from hf]
    exact List.nodup_nil
  · rintro past h e _ hd ⟨he, rfl⟩
    exact hd.keep he

end Lariska
