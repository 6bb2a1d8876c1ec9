import Mathlib.Data.List.Destutter
import Mathlib.Data.List.Sort
import Mathlib.Order.Bounds.Basic
import Mathlib.Tactic

/-!
# The best of each group

Things are grouped by a key and ranked within a group. They are sorted by the
key, the best of a group first, and of each group only the first is kept; for
each one dropped a notice may be written, about it and the one kept in its
place.

What is kept is a greatest element of each group. The sort is stable, so where
two of a group rank equally the order they came in decides; the result depends
on nothing but what is in the list exactly when such ties are harmless.
-/

namespace Survivors

variable {α κ ρ ω : Type} [LinearOrder κ] [LinearOrder ρ] (key : α → κ) (rank : α → ρ)

/-- The order of the sort: by key, and the best first within a key. -/
def Before (a b : α) : Prop := key a < key b ∨ key a = key b ∧ rank b ≤ rank a

instance : DecidableRel (Before key rank) := fun a b =>
  inferInstanceAs (Decidable (key a < key b ∨ key a = key b ∧ rank b ≤ rank a))

/-- Another key than the one before. -/
def Fresh (a b : α) : Prop := key a ≠ key b

instance : DecidableRel (Fresh key) := fun a b => inferInstanceAs (Decidable (key a ≠ key b))

/-- The list sorted. -/
def arrange (l : List α) : List α := l.insertionSort (Before key rank)

/-- The first of each group of the sorted list. -/
def survivors (l : List α) : List α := (arrange key rank l).destutter (Fresh key)

/-- Nothing in the list with the key of `a` ranks above it. -/
def IsBest (l : List α) (a : α) : Prop := ∀ b ∈ l, key b = key a → rank b ≤ rank a

/-- The notices of what is dropped behind the last one kept. -/
def notices (notice : α → α → List ω) (last : α) : List α → List ω
  | [] => []
  | e :: rest =>
    if Fresh key last e then notices notice e rest else notice last e ++ notices notice last rest

/-- The notices of what is dropped from a list. -/
def dropNotices (notice : α → α → List ω) : List α → List ω
  | [] => []
  | e :: rest => notices key notice e rest

/-- **Harmless ties.** Two of a group that rank equally are the same where
they are the best, and else leave the same notice behind the best. -/
def TiesHarmless (notice : α → α → List ω) (l : List α) : Prop :=
  ∀ a ∈ l, ∀ b ∈ l, key a = key b → rank a = rank b →
    (IsBest key rank l a → a = b) ∧
    ∀ m ∈ l, key m = key a → IsBest key rank l m → notice m a = notice m b

variable {key rank} {l l' xs ys : List α} {a b c x m : α} {notice : α → α → List ω}

/-! ## The order -/

instance : Std.Total (Before key rank) := ⟨fun a b => by
  rcases lt_trichotomy (key a) (key b) with h | h | h
  · exact .inl (.inl h)
  · exact (le_total (rank b) (rank a)).imp (fun hr => .inr ⟨h, hr⟩) fun hr => .inr ⟨h.symm, hr⟩
  · exact .inr (.inl h)⟩

instance : IsTrans α (Before key rank) := ⟨fun a b c hab hbc => by
  rcases hab with hab | ⟨hab, hr⟩ <;> rcases hbc with hbc | ⟨hbc, hr'⟩
  · exact .inl (hab.trans hbc)
  · exact .inl (hbc ▸ hab)
  · exact .inl (hab ▸ hbc)
  · exact .inr ⟨hab.trans hbc, hr'.trans hr⟩⟩

theorem Before.key_le (h : Before key rank a b) : key a ≤ key b := by
  rcases h with h | h
  · exact h.le
  · exact h.1.le

theorem Before.rank_le (h : Before key rank a b) (hk : key b = key a) : rank b ≤ rank a := by
  rcases h with h | h
  · exact absurd hk h.ne'
  · exact h.2

theorem Before.key_lt (h : Before key rank a b) (hf : Fresh key a b) : key a < key b :=
  lt_of_le_of_ne h.key_le hf

theorem not_before (h : ¬ Before key rank a b) : Before key rank b a :=
  (Std.Total.total (r := Before key rank) a b).resolve_left h

@[simp] theorem mem_arrange : x ∈ arrange key rank l ↔ x ∈ l := List.mem_insertionSort _

theorem perm_arrange (key : α → κ) (rank : α → ρ) (l : List α) : (arrange key rank l).Perm l :=
  List.perm_insertionSort _ l

theorem pairwise_arrange (key : α → κ) (rank : α → ρ) (l : List α) :
    (arrange key rank l).Pairwise (Before key rank) := List.pairwise_insertionSort _ l

omit [LinearOrder κ] in
theorem IsBest.perm (h : IsBest key rank l a) (hp : l'.Perm l) : IsBest key rank l' a :=
  fun b hb => h b (hp.mem_iff.mp hb)

/-! ## What is kept -/

/-- What is kept of a sorted list is the best of its group. -/
theorem best_of_mem_destutter' (hs : (a :: l).Pairwise (Before key rank))
    (hx : x ∈ l.destutter' (Fresh key) a) : IsBest key rank (a :: l) x := by
  induction l generalizing a with
  | nil =>
    obtain rfl : x = a := by simpa using hx
    exact fun b hb _ => by simp_all
  | cons c l ih =>
    have hac : Before key rank a c := (List.pairwise_cons.mp hs).1 c List.mem_cons_self
    have hsc : (c :: l).Pairwise (Before key rank) := (List.pairwise_cons.mp hs).2
    by_cases hf : Fresh key a c
    · rw [List.destutter'_cons_pos _ hf] at hx
      -- From `c` on, every key is above that of `a`.
      have habove : ∀ b ∈ c :: l, key a < key b := fun b hb => by
        have hcb : key c ≤ key b := by
          rcases List.mem_cons.mp hb with rfl | hb
          · exact le_rfl
          · exact ((List.pairwise_cons.mp hsc).1 b hb).key_le
        exact (hac.key_lt hf).trans_le hcb
      intro b hb hk
      rcases List.mem_cons.mp hx with rfl | hxl
      · rcases List.mem_cons.mp hb with rfl | hb
        · exact le_rfl
        · exact absurd hk (habove b hb).ne'
      · rcases List.mem_cons.mp hb with rfl | hb
        · exact absurd hk (habove x ((List.destutter'_sublist _ _ _).subset hxl)).ne
        · exact ih hsc hxl b hb hk
    · rw [List.destutter'_cons_neg _ hf] at hx
      have hsa : (a :: l).Pairwise (Before key rank) :=
        hs.sublist ((List.sublist_cons_self c l).cons_cons a)
      have hkey : key a = key c := not_not.mp hf
      intro b hb hk
      rcases List.mem_cons.mp hb with rfl | hb
      · exact ih hsa hx b List.mem_cons_self hk
      · rcases List.mem_cons.mp hb with rfl | hb
        · exact (hac.rank_le hkey.symm).trans (ih hsa hx a List.mem_cons_self (hkey.trans hk))
        · exact ih hsa hx b (List.mem_cons_of_mem _ hb) hk

/-- No group is left out. -/
theorem exists_mem_destutter' (hb : b ∈ a :: l) :
    ∃ x ∈ l.destutter' (Fresh key) a, key x = key b := by
  induction l generalizing a b with
  | nil => exact ⟨a, by simp, by simp_all⟩
  | cons c l ih =>
    by_cases hf : Fresh key a c
    · rw [List.destutter'_cons_pos _ hf]
      rcases List.mem_cons.mp hb with rfl | hb
      · exact ⟨b, List.mem_cons_self, rfl⟩
      · obtain ⟨x, hx, hk⟩ := ih hb
        exact ⟨x, List.mem_cons_of_mem _ hx, hk⟩
    · rw [List.destutter'_cons_neg _ hf]
      have hkey : key a = key c := not_not.mp hf
      rcases List.mem_cons.mp hb with rfl | hb
      · exact ih List.mem_cons_self
      · rcases List.mem_cons.mp hb with rfl | hb
        · rw [← hkey]
          exact ih List.mem_cons_self
        · exact ih (List.mem_cons_of_mem _ hb)

/-- **What is kept is the best of its group.** -/
theorem isBest_of_mem (hx : x ∈ survivors key rank l) : x ∈ l ∧ IsBest key rank l x := by
  have hmem : x ∈ arrange key rank l := (List.destutter_sublist _ _).subset hx
  refine ⟨mem_arrange.mp hmem, ?_⟩
  unfold survivors at hx
  have hs := pairwise_arrange key rank l
  refine IsBest.perm ?_ (perm_arrange key rank l).symm
  cases harr : arrange key rank l with
  | nil => simp [harr] at hmem
  | cons a rest =>
    rw [harr, List.destutter_cons'] at hx
    exact best_of_mem_destutter' (harr ▸ hs) hx

variable (key rank) in
/-- Every group keeps one. -/
theorem exists_survivor (hb : b ∈ l) : ∃ x ∈ survivors key rank l, key x = key b := by
  unfold survivors
  have hmem : b ∈ arrange key rank l := mem_arrange.mpr hb
  cases harr : arrange key rank l with
  | nil => simp [harr] at hmem
  | cons a rest =>
    rw [List.destutter_cons']
    exact exists_mem_destutter' (harr ▸ hmem)

theorem isChain_key_lt (hs : xs.Pairwise (Before key rank)) (hf : xs.IsChain (Fresh key)) :
    xs.IsChain fun a b => key a < key b := by
  induction hf with
  | nil => exact .nil
  | singleton a => exact .singleton a
  | cons_cons hab _ ih =>
    obtain ⟨ha, hrest⟩ := List.pairwise_cons.mp hs
    exact .cons_cons ((ha _ List.mem_cons_self).key_lt hab) (ih hrest)

/-- The keys of what is kept are in strictly increasing order. -/
theorem pairwise_survivors (key : α → κ) (rank : α → ρ) (l : List α) :
    (survivors key rank l).Pairwise fun a b => key a < key b := by
  have : IsTrans α fun a b => key a < key b := ⟨fun _ _ _ => lt_trans⟩
  have hsub : (survivors key rank l).Sublist (arrange key rank l) := List.destutter_sublist _ _
  exact (isChain_key_lt ((pairwise_arrange key rank l).sublist hsub)
    (List.isChain_destutter _ _)).pairwise

/-- A list with increasing keys stays as it is. -/
theorem arrange_of_pairwise (h : l.Pairwise fun a b => key a < key b) : arrange key rank l = l :=
  List.Pairwise.insertionSort_eq (h.imp fun hk => .inl hk)

theorem survivors_of_pairwise (h : l.Pairwise fun a b => key a < key b) :
    survivors key rank l = l := by
  rw [survivors, arrange_of_pairwise h, List.destutter_eq_self_iff]
  exact (h.imp fun hk => hk.ne).isChain

/-- Nothing is dropped from it. -/
theorem notices_of_pairwise (h : (a :: l).Pairwise fun a b => key a < key b) :
    notices key notice a l = [] := by
  induction l generalizing a with
  | nil => rfl
  | cons c l ih =>
    rw [notices, if_pos (show Fresh key a c from
      ((List.pairwise_cons.mp h).1 c List.mem_cons_self).ne)]
    exact ih (List.pairwise_cons.mp h).2

theorem dropNotices_of_pairwise (h : l.Pairwise fun a b => key a < key b) :
    dropNotices key notice l = [] := by
  cases l with
  | nil => rfl
  | cons a l => exact notices_of_pairwise h

/-- **The best of each group is what is kept**: a key with a rank is among the
survivors exactly when the rank is the greatest of that key. -/
theorem survivors_isGreatest {k : κ} {r : ρ} :
    (∃ x ∈ survivors key rank l, key x = k ∧ rank x = r)
      ↔ IsGreatest {r | ∃ x ∈ l, key x = k ∧ rank x = r} r := by
  constructor
  · rintro ⟨x, hx, rfl, rfl⟩
    obtain ⟨hxl, hbest⟩ := isBest_of_mem hx
    refine ⟨⟨x, hxl, rfl, rfl⟩, ?_⟩
    rintro r ⟨b, hb, hk, rfl⟩
    exact hbest b hb hk
  · rintro ⟨⟨b, hb, rfl, rfl⟩, hup⟩
    have hex : ∃ x ∈ survivors key rank l, key x = key b := exists_survivor key rank hb
    obtain ⟨x, hx, hk⟩ := hex
    obtain ⟨hxl, hbest⟩ := isBest_of_mem hx
    exact ⟨x, hx, hk, le_antisymm (hup ⟨x, hxl, hk, rfl⟩) (hbest b hb hk.symm)⟩

/-- A part of a set that reaches as high has the same greatest element. -/
theorem isGreatest_of_subset {s t : Set ρ} (hst : s ⊆ t) (hreach : ∀ r ∈ t, ∃ r' ∈ s, r ≤ r')
    {r : ρ} : IsGreatest s r ↔ IsGreatest t r := by
  constructor
  · rintro ⟨hr, hup⟩
    refine ⟨hst hr, fun x hx => ?_⟩
    obtain ⟨x', hx', hle⟩ := hreach x hx
    exact hle.trans (hup hx')
  · rintro ⟨hr, hup⟩
    obtain ⟨r', hr', hle⟩ := hreach r hr
    obtain rfl : r = r' := le_antisymm hle (hup (hst hr'))
    exact ⟨hr', fun x hx => hup (hst hx)⟩

/-- **Keeping the best of finer groups first loses nothing.** If what the
finer key does not tell apart has one coarser key, the best of each coarser
group is found among the survivors of the finer ones. -/
theorem isGreatest_survivors {κ' : Type} {coarse : α → κ'}
    (hfine : ∀ a ∈ l, ∀ b ∈ l, key a = key b → coarse a = coarse b) {k : κ'} {r : ρ} :
    IsGreatest {r | ∃ x ∈ survivors key rank l, coarse x = k ∧ rank x = r} r
      ↔ IsGreatest {r | ∃ x ∈ l, coarse x = k ∧ rank x = r} r := by
  refine isGreatest_of_subset ?_ ?_
  · rintro _ ⟨x, hx, hk, rfl⟩
    exact ⟨x, (isBest_of_mem hx).1, hk, rfl⟩
  · rintro _ ⟨b, hb, rfl, rfl⟩
    have hex : ∃ x ∈ survivors key rank l, key x = key b := exists_survivor key rank hb
    obtain ⟨x, hx, hkx⟩ := hex
    obtain ⟨hxl, hbest⟩ := isBest_of_mem hx
    exact ⟨rank x, ⟨x, hx, hfine x hxl b hb hkx, rfl⟩, hbest b hb hkx.symm⟩

/-! ## What is dropped -/

theorem exists_dropped_notices (key : α → κ) (notice : α → α → List ω) (last : α) (l : List α) :
    ∃ dropped : List (α × α),
      (l.destutter' (Fresh key) last ++ dropped.map Prod.snd).Perm (last :: l) ∧
      (∀ d ∈ dropped, d.1 ∈ l.destutter' (Fresh key) last ∧ key d.1 = key d.2) ∧
      notices key notice last l = dropped.flatMap fun d => notice d.1 d.2 := by
  induction l generalizing last with
  | nil => exact ⟨[], by simp, by simp, rfl⟩
  | cons e l ih =>
    by_cases hf : Fresh key last e
    · obtain ⟨dropped, hperm, hkept, hnotices⟩ := ih e
      refine ⟨dropped, ?_, ?_, ?_⟩
      · rw [List.destutter'_cons_pos _ hf]
        exact hperm.cons last
      · rw [List.destutter'_cons_pos _ hf]
        exact fun d hd => ⟨List.mem_cons_of_mem _ (hkept d hd).1, (hkept d hd).2⟩
      · rw [notices, if_pos hf, hnotices]
    · obtain ⟨dropped, hperm, hkept, hnotices⟩ := ih last
      have hkey : key last = key e := not_not.mp hf
      have hlast : last ∈ l.destutter' (Fresh key) last := List.mem_destutter' ..
      rw [List.destutter'_cons_neg _ hf]
      refine ⟨(last, e) :: dropped, ?_, ?_, ?_⟩
      · rw [List.map_cons]
        exact List.perm_middle.trans ((hperm.cons e).trans (List.Perm.swap last e l))
      · rintro d (_ | ⟨_, hd⟩)
        · exact ⟨hlast, hkey⟩
        · exact hkept d hd
      · rw [notices, if_neg hf, hnotices, List.flatMap_cons]

/-- **What is not kept is dropped behind what is kept of its group**, with one
notice each. -/
theorem exists_dropped (key : α → κ) (rank : α → ρ) (notice : α → α → List ω) (l : List α) :
    ∃ dropped : List (α × α), (survivors key rank l ++ dropped.map Prod.snd).Perm l ∧
      (∀ d ∈ dropped, d.1 ∈ survivors key rank l ∧ key d.1 = key d.2) ∧
      dropNotices key notice (arrange key rank l) = dropped.flatMap fun d => notice d.1 d.2 := by
  unfold survivors
  have hperm := perm_arrange key rank l
  cases harr : arrange key rank l with
  | nil =>
    rw [harr] at hperm
    exact ⟨[], by simpa using hperm, by simp, rfl⟩
  | cons a rest =>
    rw [harr] at hperm
    obtain ⟨dropped, hdropped, hkept, hnotices⟩ := exists_dropped_notices key notice a rest
    exact ⟨dropped, hdropped.trans hperm, hkept, hnotices⟩

/-! ## Ties -/

/-- Two that the sort does not tell apart. -/
def Tied (key : α → κ) (rank : α → ρ) (a b : α) : Prop := key a = key b ∧ rank a = rank b

/-- Two orders of one list are sorted alike, up to ties. -/
theorem arrange_tied (hp : l'.Perm l) :
    List.Forall₂ (Tied key rank) (arrange key rank l') (arrange key rank l) := by
  let both : α → κ × ρ := fun a => (key a, rank a)
  have hsorted : ∀ l, ((arrange key rank l).map both).Pairwise (Before Prod.fst Prod.snd) :=
    fun l => List.pairwise_map.mpr (pairwise_arrange key rank l)
  have hperm : ((arrange key rank l').map both).Perm ((arrange key rank l).map both) :=
    (((perm_arrange key rank l').trans hp).trans (perm_arrange key rank l).symm).map both
  have hanti : ∀ p q : κ × ρ, Before Prod.fst Prod.snd p q → Before Prod.fst Prod.snd q p →
      p = q := fun p q hpq hqp => by
    have hk : p.1 = q.1 := le_antisymm hpq.key_le hqp.key_le
    exact Prod.ext hk (le_antisymm (hqp.rank_le hk) (hpq.rank_le hk.symm))
  have heq : (arrange key rank l').map both = (arrange key rank l).map both :=
    List.Perm.eq_of_pairwise (fun p q _ _ => hanti p q) (hsorted l') (hsorted l) hperm
  have hforall : List.Forall₂ Eq ((arrange key rank l').map both)
      ((arrange key rank l).map both) := List.forall₂_eq_eq_eq ▸ heq
  rw [List.forall₂_map_left_iff, List.forall₂_map_right_iff] at hforall
  exact hforall.imp fun a b h => ⟨congrArg Prod.fst h, congrArg Prod.snd h⟩

/-- With harmless ties, two lists sorted alike keep the same and leave the
same notices. The induction carries that the last one kept is the best of its
group, and that all groups behind it are still to come. -/
theorem kept_congr {p : List α} (hp : TiesHarmless key rank notice p)
    (h : List.Forall₂ (Tied key rank) xs ys) (hs : (a :: xs).Pairwise (Before key rank))
    (hx : ∀ x ∈ a :: xs, x ∈ p) (hy : ∀ y ∈ ys, y ∈ p) (ha : IsBest key rank p a)
    (hcover : ∀ b ∈ p, key b ≤ key a ∨ b ∈ xs) :
    xs.destutter' (Fresh key) a = ys.destutter' (Fresh key) a
      ∧ notices key notice a xs = notices key notice a ys := by
  induction h generalizing a with
  | nil => exact ⟨rfl, rfl⟩
  | @cons e e' xs ys htied _ ih =>
    obtain ⟨hae, hse⟩ := List.pairwise_cons.mp hs
    have hep : e ∈ p := hx e (List.mem_cons_of_mem _ List.mem_cons_self)
    have hep' : e' ∈ p := hy e' List.mem_cons_self
    have hx' : ∀ x ∈ e :: xs, x ∈ p := fun x h => hx x (List.mem_cons_of_mem _ h)
    have hy' : ∀ y ∈ ys, y ∈ p := fun y h => hy y (List.mem_cons_of_mem _ h)
    have htie := hp e hep e' hep' htied.1 htied.2
    by_cases hf : Fresh key a e
    · have hlt : key a < key e := (hae e List.mem_cons_self).key_lt hf
      have hbest : IsBest key rank p e := fun b hb hk => by
        rcases hcover b hb with hle | hmem
        · exact absurd hk (hle.trans_lt hlt).ne
        · rcases List.mem_cons.mp hmem with rfl | hmem
          · exact le_rfl
          · exact ((List.pairwise_cons.mp hse).1 b hmem).rank_le hk
      obtain rfl : e = e' := htie.1 hbest
      have hcover' : ∀ b ∈ p, key b ≤ key e ∨ b ∈ xs := fun b hb => by
        rcases hcover b hb with hle | hmem
        · exact .inl (hle.trans hlt.le)
        · rcases List.mem_cons.mp hmem with rfl | hmem
          · exact .inl le_rfl
          · exact .inr hmem
      obtain ⟨hkept, hnotes⟩ := ih hse hx' hy' hbest hcover'
      rw [List.destutter'_cons_pos _ hf, List.destutter'_cons_pos _ hf, notices, if_pos hf,
        notices, if_pos hf, hkept, hnotes]
      exact ⟨rfl, rfl⟩
    · have hkey : key a = key e := not_not.mp hf
      have hf' : ¬ Fresh key a e' := not_not.mpr (hkey.trans htied.1)
      have hs' : (a :: xs).Pairwise (Before key rank) :=
        hs.sublist ((List.sublist_cons_self e xs).cons_cons a)
      have hxa : ∀ x ∈ a :: xs, x ∈ p :=
        fun x h => hx x (((List.sublist_cons_self e xs).cons_cons a).subset h)
      have hcover' : ∀ b ∈ p, key b ≤ key a ∨ b ∈ xs := fun b hb => by
        rcases hcover b hb with hle | hmem
        · exact .inl hle
        · rcases List.mem_cons.mp hmem with rfl | hmem
          · exact .inl hkey.ge
          · exact .inr hmem
      obtain ⟨hkept, hnotes⟩ := ih hs' hxa hy' ha hcover'
      rw [List.destutter'_cons_neg _ hf, List.destutter'_cons_neg _ hf', notices, if_neg hf,
        notices, if_neg hf', hkept, hnotes, htie.2 a (hx a List.mem_cons_self) hkey ha]
      exact ⟨rfl, rfl⟩

/-- **With harmless ties the order of the list does not matter.** -/
theorem perm_congr (h : TiesHarmless key rank notice l) (hp : l'.Perm l) :
    survivors key rank l' = survivors key rank l
      ∧ dropNotices key notice (arrange key rank l')
        = dropNotices key notice (arrange key rank l) := by
  have hmem : ∀ x ∈ arrange key rank l', x ∈ l := fun x hx => hp.mem_iff.mp (mem_arrange.mp hx)
  have hmem' : ∀ x ∈ l, x ∈ arrange key rank l' :=
    fun x hx => mem_arrange.mpr (hp.mem_iff.mpr hx)
  have hs := pairwise_arrange key rank l'
  have htied : List.Forall₂ (Tied key rank) (arrange key rank l') (arrange key rank l) :=
    arrange_tied hp
  have hsame : ∀ x ∈ arrange key rank l, x ∈ l := fun x hx => mem_arrange.mp hx
  unfold survivors
  generalize arrange key rank l' = zs at *
  generalize arrange key rank l = ys at *
  cases htied with
  | nil => exact ⟨rfl, rfl⟩
  | @cons a b xs ys hab htail =>
    -- The first of the sorted list is the best of the first group.
    have hbest : IsBest key rank l a := fun c hc hk => by
      rcases List.mem_cons.mp (hmem' c hc) with rfl | hc
      · exact le_rfl
      · exact ((List.pairwise_cons.mp hs).1 c hc).rank_le hk
    have hfirst : a = b := (h a (hmem a List.mem_cons_self) b (hsame b List.mem_cons_self)
      hab.1 hab.2).1 hbest
    subst hfirst
    have hcover : ∀ c ∈ l, key c ≤ key a ∨ c ∈ xs := fun c hc => by
      rcases List.mem_cons.mp (hmem' c hc) with rfl | hc
      · exact .inl le_rfl
      · exact .inr hc
    exact kept_congr h htail hs hmem (fun y hy => hsame y (List.mem_cons_of_mem _ hy)) hbest hcover

/-! ## What a harmful tie does

Put first in the list, a best one is the one kept; and two that tie swap their
notices when they swap their places. -/

theorem mem_destutter' (h : ∀ y ∈ c :: xs, key y ≠ key a) :
    a ∈ (xs ++ a :: ys).destutter' (Fresh key) c := by
  induction xs generalizing c with
  | nil =>
    rw [List.nil_append, List.destutter'_cons_pos _ (show Fresh key c a from h c (by simp))]
    exact List.mem_cons_of_mem _ (List.mem_destutter' _ _ _)
  | cons d xs ih =>
    rw [List.cons_append, List.destutter'_cons]
    split_ifs
    · exact List.mem_cons_of_mem _ (ih fun y hy => h y (List.mem_cons_of_mem _ hy))
    · exact ih fun y hy => h y (((List.sublist_cons_self d xs).cons_cons c).subset hy)

theorem mem_destutter (h : ∀ y ∈ xs, key y ≠ key a) :
    a ∈ (xs ++ a :: ys).destutter (Fresh key) := by
  cases xs with
  | nil => exact List.mem_destutter' _ _ _
  | cons c xs => exact mem_destutter' h

/-- What the sort puts before the head of the list comes before it strictly. -/
theorem orderedInsert_split (key : α → κ) (rank : α → ρ) (a : α) (s : List α) :
    ∃ xs ys, s = xs ++ ys ∧ s.orderedInsert (Before key rank) a = xs ++ a :: ys
      ∧ ∀ x ∈ xs, ¬ Before key rank a x := by
  induction s with
  | nil => exact ⟨[], [], rfl, rfl, by simp⟩
  | cons x s ih =>
    by_cases hx : Before key rank a x
    · exact ⟨[], x :: s, rfl, by simp [hx], by simp⟩
    · obtain ⟨xs, ys, rfl, hins, hxs⟩ := ih
      exact ⟨x :: xs, ys, rfl, by simp [hx, hins], by simpa [hx] using hxs⟩

/-- Two that tie are put side by side, in the order they come in. -/
theorem orderedInsert_tied (hab : Tied key rank a b) (s : List α) :
    ∃ xs ys, s = xs ++ ys ∧ (∀ x ∈ xs, ¬ Before key rank a x)
      ∧ (s.orderedInsert (Before key rank) b).orderedInsert (Before key rank) a
        = xs ++ a :: b :: ys
      ∧ (s.orderedInsert (Before key rank) a).orderedInsert (Before key rank) b
        = xs ++ b :: a :: ys := by
  have hsame : ∀ x, Before key rank b x ↔ Before key rank a x := fun x => by
    unfold Before
    rw [hab.1, hab.2]
  have hba : Before key rank a b := .inr ⟨hab.1, hab.2.ge⟩
  have haa : Before key rank a a := .inr ⟨rfl, le_rfl⟩
  induction s with
  | nil => exact ⟨[], [], rfl, by simp, by simp [hba], by simp [hsame, haa]⟩
  | cons x s ih =>
    by_cases hx : Before key rank a x
    · exact ⟨[], x :: s, rfl, by simp, by simp [hsame, hx, hba], by simp [hsame, hx, haa]⟩
    · obtain ⟨xs, ys, rfl, hxs, h₁, h₂⟩ := ih
      exact ⟨x :: xs, ys, rfl, by simpa [hx] using hxs, by simp [hsame, hx, h₁],
        by simp [hsame, hx, h₂]⟩

/-- **The first of the best is the one kept.** -/
theorem mem_survivors_cons (ha : IsBest key rank (a :: l) a) : a ∈ survivors key rank (a :: l) := by
  obtain ⟨xs, ys, hl, hal, hxs⟩ := orderedInsert_split key rank a (arrange key rank l)
  rw [survivors, arrange, List.insertionSort_cons, ← arrange, hal]
  refine mem_destutter fun x hx hk => hxs x hx (.inr ⟨hk.symm, ha x ?_ hk⟩)
  exact List.mem_cons_of_mem _ (mem_arrange.mp (hl ▸ List.mem_append_left _ hx))

theorem eq_of_survivors_eq (ha : IsBest key rank (a :: xs) a) (hb : IsBest key rank (b :: ys) b)
    (hk : key a = key b)
    (h : survivors key rank (a :: xs) = survivors key rank (b :: ys)) : a = b := by
  have hma := mem_survivors_cons ha
  have hmb := h ▸ mem_survivors_cons hb
  by_contra hne
  have hkeys : (survivors key rank (a :: xs)).Pairwise fun a b => key a ≠ key b :=
    (pairwise_survivors key rank _).imp fun h => h.ne
  have : Std.Symm fun a b : α => key a ≠ key b := ⟨fun _ _ => Ne.symm⟩
  exact hkeys.forall hma hmb hne hk

/-- The notices of a sorted list and more are those of the list, and those
behind a best one of its last group. -/
theorem notices_append (notice : α → α → List ω) (hs : (c :: xs).Pairwise (Before key rank)) :
    ∃ m ∈ c :: xs, ∃ front : List ω, (∀ x ∈ c :: xs, key x ≤ key m) ∧
      IsBest key rank (c :: xs) m ∧
      ∀ zs, notices key notice c (xs ++ zs) = front ++ notices key notice m zs := by
  induction xs generalizing c with
  | nil =>
    refine ⟨c, List.mem_cons_self, [], fun x hx => ?_, fun x hx _ => ?_, fun zs => rfl⟩
    · obtain rfl : x = c := by simpa using hx
      exact le_rfl
    · obtain rfl : x = c := by simpa using hx
      exact le_rfl
  | cons d xs ih =>
    obtain ⟨hc, hrest⟩ := List.pairwise_cons.mp hs
    have hcd := hc d List.mem_cons_self
    by_cases hf : Fresh key c d
    · obtain ⟨m, hm, front, hle, hbest, heq⟩ := ih hrest
      have hlt : key c < key m := (hcd.key_lt hf).trans_le (hle d List.mem_cons_self)
      refine ⟨m, List.mem_cons_of_mem _ hm, front, fun x hx => ?_, fun x hx hk => ?_, fun zs => ?_⟩
      · rcases List.mem_cons.mp hx with rfl | hx
        · exact hlt.le
        · exact hle x hx
      · rcases List.mem_cons.mp hx with rfl | hx
        · exact absurd hk hlt.ne
        · exact hbest x hx hk
      · rw [List.cons_append, notices, if_pos hf, heq]
    · have hkey : key c = key d := not_not.mp hf
      have hsub : (c :: xs).Sublist (c :: d :: xs) := (List.sublist_cons_self d xs).cons_cons c
      obtain ⟨m, hm, front, hle, hbest, heq⟩ := ih (hs.sublist hsub)
      refine ⟨m, hsub.subset hm, notice c d ++ front, fun x hx => ?_, fun x hx hk => ?_,
        fun zs => ?_⟩
      · rcases List.mem_cons.mp hx with rfl | hx
        · exact hle x List.mem_cons_self
        · rcases List.mem_cons.mp hx with rfl | hx
          · exact hkey ▸ hle c List.mem_cons_self
          · exact hle x (List.mem_cons_of_mem _ hx)
      · rcases List.mem_cons.mp hx with rfl | hx
        · exact hbest x List.mem_cons_self hk
        · rcases List.mem_cons.mp hx with rfl | hx
          · exact (hcd.rank_le hkey.symm).trans (hbest c List.mem_cons_self (hkey.trans hk))
          · exact hbest x (List.mem_cons_of_mem _ hx) hk
      · rw [List.cons_append, notices, if_neg hf, heq, List.append_assoc]

/-- **Two that tie below the best swap their notices** when they swap their
places at the head of the list. -/
theorem notices_swap (notice : α → α → List ω) (hab : Tied key rank a b) (hm : m ∈ l) (hk : key m = key a)
    (hr : rank a < rank m) :
    ∃ best ∈ l, key best = key a ∧ IsBest key rank (a :: b :: l) best ∧ ∃ front back : List ω,
      dropNotices key notice (arrange key rank (a :: b :: l))
        = front ++ (notice best a ++ notice best b) ++ back ∧
      dropNotices key notice (arrange key rank (b :: a :: l))
        = front ++ (notice best b ++ notice best a) ++ back := by
  obtain ⟨xs, ys, hl, hxs, h₁, h₂⟩ := orderedInsert_tied hab (arrange key rank l)
  have harr : ∀ c d, arrange key rank (c :: d :: l)
      = ((arrange key rank l).orderedInsert (Before key rank) d).orderedInsert
        (Before key rank) c := fun c d => rfl
  rw [harr, harr, h₁, h₂]
  have hs := pairwise_arrange key rank (a :: b :: l)
  rw [harr, h₁] at hs
  -- The better one stands before the two.
  have hmx : m ∈ xs := by
    have hmem : m ∈ xs ++ ys := hl ▸ mem_arrange.mpr hm
    refine (List.mem_append.mp hmem).resolve_right fun hmy => ?_
    have hba := (List.pairwise_append.mp hs).2.1
    exact absurd (((List.pairwise_cons.mp hba).1 m (List.mem_cons_of_mem _ hmy)).rank_le hk)
      (not_le.mpr hr)
  cases xs with
  | nil => simp at hmx
  | cons c xs =>
    obtain ⟨best, hbm, front, hle, hbest, heq⟩ :=
      notices_append notice ((List.pairwise_append.mp hs).1)
    have hbl : best ∈ l := mem_arrange.mp (hl ▸ List.mem_append_left _ hbm)
    have hkb : key best = key a := by
      refine le_antisymm (not_before (hxs best hbm)).key_le ?_
      exact hk ▸ hle m hmx
    have hra : rank a ≤ rank best := (not_before (hxs best hbm)).rank_le hkb.symm
    have hbestAll : IsBest key rank (a :: b :: l) best := fun y hy hyk => by
      rcases List.mem_cons.mp hy with rfl | hy
      · exact hra
      · rcases List.mem_cons.mp hy with rfl | hy
        · exact hab.2 ▸ hra
        · have hmem : y ∈ (c :: xs) ++ ys := hl ▸ mem_arrange.mpr hy
          rcases List.mem_append.mp hmem with hy | hy
          · exact hbest y hy hyk
          · have hba := (List.pairwise_append.mp hs).2.1
            exact (((List.pairwise_cons.mp hba).1 y (List.mem_cons_of_mem _ hy)).rank_le
              (hyk.trans hkb)).trans hra
    refine ⟨best, hbl, hkb, hbestAll, front, notices key notice best ys, ?_, ?_⟩
    · have hfa : ¬ Fresh key best a := not_not.mpr hkb
      have hfb : ¬ Fresh key best b := not_not.mpr (hkb.trans hab.1)
      rw [List.cons_append, dropNotices, heq, notices, if_neg hfa, notices, if_neg hfb]
      simp [List.append_assoc]
    · have hfa : ¬ Fresh key best a := not_not.mpr hkb
      have hfb : ¬ Fresh key best b := not_not.mpr (hkb.trans hab.1)
      rw [List.cons_append, dropNotices, heq, notices, if_neg hfb, notices, if_neg hfa]
      simp [List.append_assoc]

end Survivors
