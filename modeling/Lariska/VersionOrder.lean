import Lariska.Versions
import Mathlib.Data.List.Sort
import Mathlib.Data.List.SplitBy

/-!
# Sorting by version

`compare_versions` is the comparison of what is read of the versions, so it is
a total preorder, and sorting by it gives one list up to versions that compare
equal. On versions that are runs of digits between dots it is the comparison of
the numbers, as long as a run fits in `u128`; a longer run is a text, below
every number.
-/

namespace Lariska

variable {L : Libraries}

/-! ## The preorder -/

theorem isLE_compareVersions {left right : Option String} :
    (compareVersions L left right).isLE = true ↔ versionRank L left ≤ versionRank L right := by
  rw [Ordering.isLE_iff_ne_gt]
  exact (compareVersions_compares L left right).ne_gt

theorem compareVersions_swap (left right : Option String) :
    compareVersions L right left = (compareVersions L left right).swap := by
  have hswap : ((compareVersions L left right).swap).Compares (versionRank L right)
      (versionRank L left) :=
    Ordering.compares_swap.mpr (compareVersions_compares L left right)
  exact (compareVersions_compares L right left).inj hswap

/-- `compare_versions` orders versions as a comparison function should. -/
instance : Std.TransCmp (compareVersions L) where
  eq_swap {a b} := compareVersions_swap b a
  isLE_trans hab hbc :=
    isLE_compareVersions.mpr ((isLE_compareVersions.mp hab).trans (isLE_compareVersions.mp hbc))

/-- Sorted by version. -/
def SortedByVersion (L : Libraries) (versions : List (Option String)) : Prop :=
  versions.Pairwise fun a b => (compareVersions L a b).isLE = true

/-- Two ways of sorting give versions that compare equal, place by place. -/
theorem SortedByVersion.unique {xs ys : List (Option String)} (hx : SortedByVersion L xs)
    (hy : SortedByVersion L ys) (hp : xs.Perm ys) :
    List.Forall₂ (fun a b => compareVersions L a b = .eq) xs ys := by
  have sorted : ∀ {zs : List (Option String)}, SortedByVersion L zs →
      (zs.map (versionRank L)).Pairwise (· ≤ ·) := fun hz =>
    List.pairwise_map.mpr (hz.imp fun h => isLE_compareVersions.mp h)
  have hranks : xs.map (versionRank L) = ys.map (versionRank L) :=
    List.Perm.eq_of_pairwise' (sorted hx) (sorted hy) (hp.map _)
  have hforall : List.Forall₂ Eq (xs.map (versionRank L)) (ys.map (versionRank L)) := by
    rw [List.forall₂_eq_eq_eq]
    exact hranks
  rw [List.forall₂_map_left_iff, List.forall₂_map_right_iff] at hforall
  exact hforall.imp fun _ _ h => compareVersions_eq_iff.mpr h

/-- **`compare_versions` is a total preorder**: reflexive, the other way round
when its arguments are, and transitive; comparing equal is an equivalence that
every comparison respects, and any two sorted lists of the same versions agree
up to it. -/
theorem compareVersions_preorder (L : Libraries) :
    (∀ a, compareVersions L a a = .eq) ∧
    (∀ a b, compareVersions L b a = (compareVersions L a b).swap) ∧
    (∀ a b c, (compareVersions L a b).isLE = true → (compareVersions L b c).isLE = true →
      (compareVersions L a c).isLE = true) ∧
    Equivalence (fun a b => compareVersions L a b = .eq) ∧
    (∀ a b c, compareVersions L a b = .eq →
      compareVersions L a c = compareVersions L b c ∧
      compareVersions L c a = compareVersions L c b) ∧
    ∀ xs ys : List (Option String), xs.Perm ys → SortedByVersion L xs → SortedByVersion L ys →
      List.Forall₂ (fun a b => compareVersions L a b = .eq) xs ys := by
  have refl : ∀ a, compareVersions L a a = .eq := fun a => compareVersions_eq_iff.mpr rfl
  refine ⟨refl, compareVersions_swap, fun a b c => Std.TransCmp.isLE_trans, ⟨refl, ?_, ?_⟩, ?_,
    fun xs ys hp hx hy => hx.unique hy hp⟩
  · intro a b h
    exact Std.OrientedCmp.eq_symm h
  · intro a b c hab hbc
    exact Std.TransCmp.eq_trans hab hbc
  · intro a b c h
    exact ⟨Std.TransCmp.congr_left h, Std.TransCmp.congr_right h⟩

/-! ## Runs of digits -/

/-- A run of decimal digits. -/
def DigitRun (run : List Char) : Prop := run ≠ [] ∧ ∀ c ∈ run, isAsciiDigit c = true

instance : DecidablePred DigitRun := fun run =>
  have : Decidable (∀ c ∈ run, isAsciiDigit c = true) := List.decidableBAll _ run
  inferInstanceAs (Decidable (run ≠ [] ∧ ∀ c ∈ run, isAsciiDigit c = true))

/-- Runs with dots between them. -/
def dotted (runs : List (List Char)) : String := String.ofList (List.intercalate ['.'] runs)

/-- The order of two runs: that of the numbers where both fit in `u128`, a run
that does not fit below one that does, and two such as texts. -/
def compareRun (a b : List Char) : Ordering :=
  if digitsValue a < 2 ^ 128 then
    if digitsValue b < 2 ^ 128 then compare (digitsValue a) (digitsValue b) else .gt
  else if digitsValue b < 2 ^ 128 then .lt
  else compare (String.ofList a) (String.ofList b)

/-- A run of digits as a chunk. -/
def digitChunk (run : List Char) : Chunk :=
  if digitsValue run < 2 ^ 128 then .number (digitsValue run) else .text (String.ofList run)

theorem cmp_digitChunk (a b : List Char) : (digitChunk a).cmp (digitChunk b) = compareRun a b := by
  unfold digitChunk compareRun
  split_ifs <;> rfl

/-- The loop of `compare_versions` is the lexicographic comparison. -/
theorem compareChunks_eq (left right : List Chunk) :
    compareChunks left right = List.compareLex Chunk.cmp left right := by
  induction left generalizing right with
  | nil => cases right <;> rfl
  | cons a left ih =>
    cases right with
    | nil => rfl
    | cons b right => rw [compareChunks, List.compareLex_cons_cons, ih]

theorem compareLex_map {α β : Type} {f : α → β} {cmp : β → β → Ordering} {cmp' : α → α → Ordering}
    (h : ∀ a b, cmp (f a) (f b) = cmp' a b) (xs ys : List α) :
    List.compareLex cmp (xs.map f) (ys.map f) = List.compareLex cmp' xs ys := by
  induction xs generalizing ys with
  | nil => cases ys <;> rfl
  | cons x xs ih =>
    cases ys with
    | nil => rfl
    | cons y ys => rw [List.map_cons, List.map_cons, List.compareLex_cons_cons,
        List.compareLex_cons_cons, h, ih]

/-! ### How such a version is read -/

theorem trim_ofList {cs : List Char} (h : ∀ c ∈ cs, isWhitespace c = false) :
    trim (String.ofList cs) = cs := by
  have keeps : ∀ {ds : List Char}, (∀ c ∈ ds, isWhitespace c = false) →
      ds.dropWhile isWhitespace = ds := by
    intro ds hds
    cases ds with
    | nil => rfl
    | cons d ds => rw [List.dropWhile_cons_of_neg (by simp [hds d])]
  unfold trim
  rw [String.toList_ofList, keeps h, keeps fun c hc => h c (List.mem_reverse.mp hc),
    List.reverse_reverse]

theorem forall_mem_intersperse {α : Type} {p : α → Prop} {sep : α} {xs : List α} (hsep : p sep)
    (h : ∀ x ∈ xs, p x) : ∀ x ∈ xs.intersperse sep, p x := by
  induction xs with
  | nil => simp
  | cons a xs ih =>
    cases xs with
    | nil => simpa using h
    | cons b xs =>
      rw [List.intersperse_cons_cons, List.forall_mem_cons, List.forall_mem_cons]
      exact ⟨h a (by simp), hsep, ih fun x hx => h x (List.mem_cons_of_mem _ hx)⟩

/-- What lies between separators is linked to them only. -/
theorem isChain_intersperse {α : Type} {r : α → α → Prop} {sep : α} {xs : List α}
    (h : ∀ x ∈ xs, r x sep ∧ r sep x) : (xs.intersperse sep).IsChain r := by
  induction xs with
  | nil => simp
  | cons a xs ih =>
    have hrest := ih fun x hx => h x (List.mem_cons_of_mem _ hx)
    cases xs with
    | nil => simp
    | cons b xs =>
      rw [List.intersperse_cons_cons, List.isChain_cons_cons]
      refine ⟨(h a (by simp)).1, ?_⟩
      cases xs with
      | nil => exact List.isChain_cons_cons.mpr ⟨(h b (by simp)).2, hrest⟩
      | cons c xs =>
        rw [List.intersperse_cons_cons] at hrest ⊢
        exact List.isChain_cons_cons.mpr ⟨(h b (by simp)).2, hrest⟩

theorem filterMap_intersperse {α β : Type} {f : α → Option β} {sep : α} (hsep : f sep = none)
    (xs : List α) : (xs.intersperse sep).filterMap f = xs.filterMap f := by
  induction xs with
  | nil => rfl
  | cons a xs ih =>
    cases xs with
    | nil => rfl
    | cons b xs =>
      rw [List.intersperse_cons_cons, List.filterMap_cons, List.filterMap_cons_none hsep, ih]
      exact List.filterMap_cons.symm

theorem isWhitespace_digit {c : Char} (h : isAsciiDigit c = true) : isWhitespace c = false := by
  unfold isAsciiDigit at h
  have hlow : 48 ≤ c.toNat := by
    have := (decide_eq_true_iff.mp (Bool.and_eq_true_iff.mp h).1)
    exact this
  have hhigh : c.toNat ≤ 57 := by
    have := (decide_eq_true_iff.mp (Bool.and_eq_true_iff.mp h).2)
    exact this
  unfold isWhitespace
  simp
  omega

theorem charClass_digit {c : Char} (h : isAsciiDigit c = true) : charClass L c = .digit := by
  unfold charClass
  rw [if_pos h]

theorem charClass_dot (hdot : L.isAlphanumeric '.' = false) : charClass L '.' = .separator := by
  unfold charClass
  rw [if_neg (by decide), if_neg (by simp [hdot])]

theorem chunkOf_digitRun {run : List Char} (h : DigitRun run) :
    chunkOf L run = some (digitChunk run) := by
  obtain ⟨hne, hdigits⟩ := h
  cases run with
  | nil => exact absurd rfl hne
  | cons c run =>
    unfold chunkOf digitChunk
    dsimp only
    rw [charClass_digit (hdigits c (by simp))]
    dsimp only
    split <;> rfl

/-- What is read of a dotted version is its runs. -/
theorem versionChunks_dotted (hdot : L.isAlphanumeric '.' = false) {runs : List (List Char)}
    (h : ∀ run ∈ runs, DigitRun run) : versionChunks L (dotted runs) = runs.map digitChunk := by
  have hflat : List.intercalate ['.'] runs = (runs.intersperse ['.']).flatten := rfl
  have hblank : ∀ c ∈ List.intercalate ['.'] runs, isWhitespace c = false := by
    rw [hflat]
    intro c hc
    obtain ⟨part, hpart, hc⟩ := List.mem_flatten.mp hc
    refine forall_mem_intersperse (p := fun part => ∀ c ∈ part, isWhitespace c = false)
      ?_ ?_ part hpart c hc
    · rw [List.forall_mem_singleton]
      decide
    · intro run hrun c hc
      exact isWhitespace_digit ((h run hrun).2 c hc)
  have hsplit : (List.intercalate ['.'] runs).splitBy (fun a b => charClass L a = charClass L b)
      = runs.intersperse ['.'] := by
    rw [List.splitBy_eq_iff]
    refine ⟨hflat, ?_, ?_, ?_⟩
    · intro hnil
      exact forall_mem_intersperse (p := fun part => part ≠ []) (by simp)
        (fun run hrun => (h run hrun).1) [] hnil rfl
    · refine forall_mem_intersperse (by simp) fun run hrun => ?_
      refine List.Pairwise.isChain (List.pairwise_of_forall_mem_list fun a ha b hb => ?_)
      rw [charClass_digit ((h run hrun).2 a ha), charClass_digit ((h run hrun).2 b hb)]
      simp
    · refine isChain_intersperse fun run hrun => ?_
      have hne := (h run hrun).1
      have hlast := charClass_digit (L := L) ((h run hrun).2 _ (List.getLast_mem hne))
      have hhead := charClass_digit (L := L) ((h run hrun).2 _ (List.head_mem hne))
      refine ⟨⟨hne, by simp, ?_⟩, ⟨by simp, hne, ?_⟩⟩
      · simp [hlast, charClass_dot hdot]
      · simp [hhead, charClass_dot hdot]
  unfold versionChunks dotted
  rw [trim_ofList hblank, hsplit, filterMap_intersperse]
  · rw [← List.filterMap_eq_map]
    exact List.filterMap_congr fun run hrun => chunkOf_digitRun (h run hrun)
  · unfold chunkOf
    dsimp only
    rw [charClass_dot hdot]

/-- **Digit runs compare as numbers, where they fit in `u128`.** Two versions
of digit runs between dots compare run by run, the shorter below the longer;
where every run fits, that is the order of the sequences of numbers, whatever
zeros the runs begin with. -/
theorem compareVersions_dotted (hdot : L.isAlphanumeric '.' = false) {xs ys : List (List Char)}
    (hx : ∀ run ∈ xs, DigitRun run) (hy : ∀ run ∈ ys, DigitRun run) :
    compareVersions L (some (dotted xs)) (some (dotted ys)) = List.compareLex compareRun xs ys ∧
    ((∀ run ∈ xs ++ ys, digitsValue run < 2 ^ 128) →
      compareVersions L (some (dotted xs)) (some (dotted ys))
        = List.compareLex compare (xs.map digitsValue) (ys.map digitsValue)) := by
  have hruns : compareVersions L (some (dotted xs)) (some (dotted ys))
      = List.compareLex compareRun xs ys := by
    show compareChunks (versionChunks L (dotted xs)) (versionChunks L (dotted ys)) = _
    rw [versionChunks_dotted hdot hx, versionChunks_dotted hdot hy, compareChunks_eq,
      compareLex_map cmp_digitChunk]
  refine ⟨hruns, fun hfit => hruns.trans ?_⟩
  clear hruns hx hy
  induction xs generalizing ys with
  | nil => cases ys <;> rfl
  | cons x xs ih =>
    cases ys with
    | nil => rfl
    | cons y ys =>
      have hrest : ∀ run ∈ xs ++ ys, digitsValue run < 2 ^ 128 := fun run hrun => hfit run (by
        simp only [List.mem_append, List.mem_cons] at hrun ⊢
        tauto)
      rw [List.map_cons, List.map_cons, List.compareLex_cons_cons, List.compareLex_cons_cons,
        ih hrest, compareRun, if_pos (hfit x (by simp)), if_pos (hfit y (by simp))]

namespace Sample

/-- A run too long for `u128`: the digits of 2 ^ 128. -/
def longRun : List Char := "340282366920938463463374607431768211456".toList

/-- The least number that does not fit in `u128` is below 1. -/
theorem long_run_below : ¬ ∀ (L : Libraries) (xs ys : List (List Char)),
    L.isAlphanumeric '.' = false → xs ≠ [] → ys ≠ [] → (∀ run ∈ xs, DigitRun run) →
    (∀ run ∈ ys, DigitRun run) →
    compareVersions L (some (dotted xs)) (some (dotted ys))
      = List.compareLex compare (xs.map digitsValue) (ys.map digitsValue) := by
  intro h
  have hrun := h (libraries [] []) [longRun] [['1']] (by decide) (by decide) (by decide)
    (by decide +kernel) (by decide +kernel)
  revert hrun
  decide +kernel

/-- `1.08` and `1.8` have the numbers 1 and 8, `1.10` is above both. -/
theorem leading_zeros : compareVersions (libraries [] []) (some "1.08") (some "1.8")
      = List.compareLex compare [1, 8] [1, 8] ∧
    compareVersions (libraries [] []) (some "1.10") (some "1.08")
      = List.compareLex compare [1, 10] [1, 8] :=
  ⟨(compareVersions_dotted (L := libraries [] []) (by decide)
      (show ∀ run ∈ [['1'], ['0', '8']], DigitRun run by decide)
      (show ∀ run ∈ [['1'], ['8']], DigitRun run by decide)).2 (by decide),
    (compareVersions_dotted (L := libraries [] []) (by decide)
      (show ∀ run ∈ [['1'], ['1', '0']], DigitRun run by decide)
      (show ∀ run ∈ [['1'], ['0', '8']], DigitRun run by decide)).2 (by decide)⟩

end Sample

end Lariska
