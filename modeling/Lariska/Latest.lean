import Mathlib.Tactic

/-!
# The latest of a list

Things that carry a stamp – a time, a number – are put in the order of their
stamps, those with equal stamps staying as they were, and the last one in
that order is the latest. With distinct stamps it is the one above all the
others, however the list was ordered before, and taking away others, or a few
from the front, does not change it.
-/

namespace Stamped

variable {α κ : Type} [LinearOrder κ] (stamp : α → κ)

/-- The list in the order of its stamps. -/
def inOrder (l : List α) : List α := l.insertionSort fun a b => stamp a ≤ stamp b

/-- The last in the order of the stamps. -/
def latest (l : List α) : Option α := (inOrder stamp l).getLast?

variable {stamp} {l : List α} {x : α}

@[simp] theorem mem_inOrder : x ∈ inOrder stamp l ↔ x ∈ l := List.mem_insertionSort _

@[simp] theorem length_inOrder : (inOrder stamp l).length = l.length :=
  List.length_insertionSort _ _

@[simp] theorem inOrder_eq_nil : inOrder stamp l = [] ↔ l = [] := by
  rw [← List.length_eq_zero_iff, length_inOrder, List.length_eq_zero_iff]

theorem pairwise_inOrder (stamp : α → κ) (l : List α) :
    (inOrder stamp l).Pairwise fun a b => stamp a ≤ stamp b := by
  have : Std.Total fun a b : α => stamp a ≤ stamp b := ⟨fun a b => le_total _ _⟩
  have : IsTrans α fun a b => stamp a ≤ stamp b := ⟨fun _ _ _ => le_trans⟩
  exact List.pairwise_insertionSort _ l

/-- A list in order stays as it is. -/
theorem inOrder_of_pairwise (h : l.Pairwise fun a b => stamp a ≤ stamp b) : inOrder stamp l = l :=
  List.Pairwise.insertionSort_eq h

/-- Distinct stamps are put in strictly increasing order. -/
theorem pairwise_lt_inOrder (hd : (l.map stamp).Nodup) :
    (inOrder stamp l).Pairwise fun a b => stamp a < stamp b := by
  have hperm : ((inOrder stamp l).map stamp).Perm (l.map stamp) :=
    (List.perm_insertionSort _ l).map stamp
  have hne : (inOrder stamp l).Pairwise fun a b => stamp a ≠ stamp b :=
    List.pairwise_map.mp (hperm.nodup_iff.mpr hd)
  exact (hne.and (pairwise_inOrder stamp l)).imp fun h => lt_of_le_of_ne h.2 h.1

@[simp] theorem latest_eq_none : latest stamp l = none ↔ l = [] := by
  rw [latest, List.getLast?_eq_none_iff, inOrder_eq_nil]

/-- The latest is in the list, and nothing in the list is later. -/
theorem latest_spec (h : latest stamp l = some x) : x ∈ l ∧ ∀ y ∈ l, stamp y ≤ stamp x := by
  obtain ⟨front, hfront⟩ := List.getLast?_eq_some_iff.mp h
  refine ⟨mem_inOrder.mp (hfront ▸ List.mem_append_right _ (List.mem_singleton_self x)),
    fun y hy => ?_⟩
  have hmem : y ∈ front ++ [x] := hfront ▸ mem_inOrder.mpr hy
  have hsorted : (front ++ [x]).Pairwise fun a b => stamp a ≤ stamp b :=
    hfront ▸ pairwise_inOrder stamp l
  rcases List.mem_append.mp hmem with hy | hy
  · exact (List.pairwise_append.mp hsorted).2.2 y hy x (List.mem_singleton_self x)
  · rw [List.mem_singleton.mp hy]

/-- **With distinct stamps the latest is the one above all the others.** -/
theorem latest_eq_some (hd : (l.map stamp).Nodup) :
    latest stamp l = some x ↔ x ∈ l ∧ ∀ y ∈ l, stamp y ≤ stamp x := by
  refine ⟨latest_spec, fun ⟨hx, hmax⟩ => ?_⟩
  cases h : latest stamp l with
  | none =>
    rw [latest_eq_none.mp h] at hx
    cases hx
  | some y =>
    obtain ⟨hy, hmax'⟩ := latest_spec h
    exact congrArg some (List.inj_on_of_nodup_map hd hy hx (le_antisymm (hmax y hy) (hmax' x hx)))

/-- Whatever is taken from the front, as long as one remains, the latest is not
among it. -/
theorem latest_not_mem_take (hd : (l.map stamp).Nodup) (h : latest stamp l = some x) {n : ℕ}
    (hn : n < l.length) : x ∉ (inOrder stamp l).take n := by
  intro hx
  have hmax := (latest_spec h).2
  have hlt := pairwise_lt_inOrder hd
  rw [← List.take_append_drop n (inOrder stamp l)] at hlt
  have hdrop : (inOrder stamp l).drop n ≠ [] := by
    rw [Ne, List.drop_eq_nil_iff, length_inOrder]
    omega
  obtain ⟨y, hy⟩ := List.exists_mem_of_ne_nil _ hdrop
  have hbefore := (List.pairwise_append.mp hlt).2.2 x hx y hy
  exact absurd (hmax y (mem_inOrder.mp (List.drop_subset _ _ hy))) (not_le.mpr hbefore)

/-- In front of what is no earlier, an element goes first. -/
theorem orderedInsert_first {a : α} {s : List α} (h : ∀ b ∈ s, stamp a ≤ stamp b) :
    s.orderedInsert (fun a b => stamp a ≤ stamp b) a = a :: s := by
  cases s with
  | nil => rfl
  | cons b s => exact List.orderedInsert_cons_of_le _ _ (h b List.mem_cons_self)

/-- Some of a list are in the order they have in the whole. -/
theorem inOrder_filter (p : α → Bool) (l : List α) :
    inOrder stamp (l.filter p) = (inOrder stamp l).filter p := by
  have insert : ∀ (a : α) (s : List α), (s.Pairwise fun a b => stamp a ≤ stamp b) →
      (s.orderedInsert (fun a b => stamp a ≤ stamp b) a).filter p
        = if p a then (s.filter p).orderedInsert (fun a b => stamp a ≤ stamp b) a
          else s.filter p := by
    intro a s hs
    induction s with
    | nil => by_cases ha : p a = true <;> simp [ha]
    | cons b s ih =>
      by_cases hab : stamp a ≤ stamp b
      · have hall : ∀ c ∈ (b :: s).filter p, stamp a ≤ stamp c := by
          intro c hc
          rcases List.mem_cons.mp (List.mem_filter.mp hc).1 with rfl | hc
          · exact hab
          · exact hab.trans (List.rel_of_pairwise_cons hs hc)
        rw [List.orderedInsert_cons, if_pos hab, List.filter_cons, orderedInsert_first hall]
      · rw [List.orderedInsert_cons, if_neg hab, List.filter_cons, ih hs.of_cons]
        by_cases hb : p b = true <;> by_cases ha : p a = true <;>
          simp [ha, hb, hab]
  induction l with
  | nil => rfl
  | cons a l ih =>
    have hsort : inOrder stamp (a :: l)
        = (inOrder stamp l).orderedInsert (fun a b => stamp a ≤ stamp b) a := rfl
    rw [hsort, insert a _ (pairwise_inOrder stamp l), ← ih, List.filter_cons]
    split <;> rfl

/-! ## Equal stamps -/

variable {w : List α} {a b : α}

/-- One of a list comes before another in order: its stamp is lower, or the
same and it stood first. -/
def Precedes (stamp : α → κ) (l : List α) (a b : α) : Prop :=
  stamp a < stamp b ∨ stamp a = stamp b ∧ [a, b].Sublist l

/-- Two of a list stand in one order or the other. -/
theorem sublist_pair (ha : a ∈ l) (hb : b ∈ l) (hne : a ≠ b) :
    [a, b].Sublist l ∨ [b, a].Sublist l := by
  obtain ⟨front, back, rfl⟩ := List.append_of_mem ha
  rcases List.mem_append.mp hb with hb | hb
  · exact .inr ((List.singleton_sublist.mpr hb).append (List.singleton_sublist.mpr List.mem_cons_self))
  · have hb : b ∈ back := (List.mem_cons.mp hb).resolve_left hne.symm
    exact .inl ((List.nil_sublist front).append ((List.singleton_sublist.mpr hb).cons_cons a))

/-- ... but not in both. -/
theorem not_sublist_pair (hd : l.Nodup) (h : [a, b].Sublist l) : ¬ [b, a].Sublist l := by
  induction l with
  | nil => cases h
  | cons c l ih =>
    obtain ⟨hc, hd⟩ := List.nodup_cons.mp hd
    intro h'
    cases h with
    | cons _ h =>
      cases h' with
      | cons _ h' => exact ih hd h h'
      | cons_cons _ h' => exact hc (h.subset (by simp))
    | cons_cons _ h =>
      cases h' with
      | cons _ h' => exact hc (h'.subset (by simp))
      | cons_cons _ h' => exact hc (h'.subset (by simp))

/-- The order is stable. -/
theorem pairwise_precedes_inOrder (hd : l.Nodup) :
    (inOrder stamp l).Pairwise (Precedes stamp l) := by
  have hnodup : (inOrder stamp l).Nodup := (List.perm_insertionSort _ l).nodup_iff.mpr hd
  refine List.pairwise_iff_forall_sublist.mpr fun {a b} hab => ?_
  have hle : stamp a ≤ stamp b :=
    List.pairwise_iff_forall_sublist.mp (pairwise_inOrder stamp l) hab
  rcases hle.lt_or_eq with hlt | heq
  · exact .inl hlt
  · have hne : a ≠ b := by simpa using hnodup.sublist hab
    have ha : a ∈ l := mem_inOrder.mp (hab.subset (by simp))
    have hb : b ∈ l := mem_inOrder.mp (hab.subset (by simp))
    rcases sublist_pair ha hb hne with h | h
    · exact .inr ⟨heq, h⟩
    · have hba : [b, a].Sublist (inOrder stamp l) :=
        List.pair_sublist_insertionSort (r := fun a b => stamp a ≤ stamp b) heq.ge h
      exact absurd hba (not_sublist_pair hnodup hab)

/-- **When a list is put in a given order**: of any two, the first has the lower
stamp, or the same and it stood first already. -/
theorem inOrder_eq_iff (hd : l.Nodup) (hp : w.Perm l) :
    inOrder stamp l = w ↔ w.Pairwise (Precedes stamp l) := by
  refine ⟨fun h => h ▸ pairwise_precedes_inOrder hd, fun h => ?_⟩
  refine List.Perm.eq_of_pairwise (fun a b _ _ hab hba => ?_) (pairwise_precedes_inOrder hd) h
    ((List.perm_insertionSort _ l).trans hp.symm)
  rcases hab with hlt | ⟨heq, hab⟩
  · rcases hba with hlt' | ⟨heq', -⟩
    · exact absurd hlt' hlt.asymm
    · exact absurd heq'.symm hlt.ne
  · rcases hba with hlt' | ⟨-, hba⟩
    · exact absurd heq.symm hlt'.ne
    · exact absurd hba (not_sublist_pair hd hab)

end Stamped
