import Lariska.Versions
import Mathlib.Data.List.TakeWhile

/-!
# Text as the inventory keeps it

Names, versions and publishers are kept as their words with single blanks
between them, optional ones not at all if nothing is left, and a few names of
architectures are brought to one spelling. Each of these is done again every
time a snapshot is normalized, and does nothing the second time.
-/

namespace Lariska

/-- `split_whitespace`. -/
def words (text : List Char) : List (List Char) :=
  (text.splitOnP isWhitespace).filter fun word => word ≠ []

def normalizeRequiredString (value : String) : String :=
  String.ofList (List.intercalate [' '] (words value.toList))

def normalizeOptionalString (value : Option String) : Option String :=
  (value.map normalizeRequiredString).filter fun value => value ≠ ""

def normalizeArchitecture (value : String) : String :=
  match toAsciiLowercase value with
  | "amd64" | "x64" => "x86_64"
  | "arm64" => "aarch64"
  | other => other

/-! ## Words -/

theorem not_isWhitespace_of_mem_splitOnP {text word : List Char}
    (h : word ∈ text.splitOnP isWhitespace) : ∀ c ∈ word, isWhitespace c = false := by
  induction text generalizing word with
  | nil => simp_all
  | cons c text ih =>
    rw [List.splitOnP_cons_eq_if_modifyHead] at h
    by_cases hc : isWhitespace c = true
    · rw [if_pos hc] at h
      rcases List.mem_cons.mp h with rfl | h
      · simp
      · exact ih h
    · rw [if_neg hc] at h
      obtain ⟨first, rest, hsplit⟩ :=
        List.exists_cons_of_ne_nil (List.splitOnP_ne_nil isWhitespace text)
      rw [hsplit, List.modifyHead_cons] at h
      rcases List.mem_cons.mp h with rfl | h
      · have hfirst := ih (hsplit ▸ List.mem_cons_self : first ∈ text.splitOnP isWhitespace)
        simpa [hc] using hfirst
      · exact ih (hsplit ▸ List.mem_cons_of_mem _ h)

theorem words_append {word : List Char} (hne : word ≠ []) (hw : ∀ c ∈ word, isWhitespace c = false)
    (text : List Char) : words (word ++ ' ' :: text) = word :: words text := by
  unfold words
  rw [List.splitOnP_append_cons_of_forall_mem hw ' ' (by decide), List.filter_cons_of_pos]
  simpa using hne

/-- Words put together with blanks are read as these words. -/
theorem words_intercalate {ws : List (List Char)}
    (h : ∀ w ∈ ws, w ≠ [] ∧ ∀ c ∈ w, isWhitespace c = false) :
    words (List.intercalate [' '] ws) = ws := by
  induction ws with
  | nil => rfl
  | cons w ws ih =>
    obtain ⟨hne, hw⟩ := h w List.mem_cons_self
    have hws := ih fun v hv => h v (List.mem_cons_of_mem _ hv)
    cases ws with
    | nil =>
      rw [List.intercalate_singleton]
      unfold words
      rw [List.splitOnP_eq_singleton hw, List.filter_cons_of_pos (by simpa using hne),
        List.filter_nil]
    | cons v ws =>
      rw [List.intercalate_cons_cons, List.append_assoc, List.singleton_append,
        words_append hne hw, hws]

theorem words_words (text : List Char) : words (List.intercalate [' '] (words text)) = words text :=
  words_intercalate fun _ hw =>
    ⟨by simpa using (List.mem_filter.mp hw).2,
      not_isWhitespace_of_mem_splitOnP (List.mem_filter.mp hw).1⟩

/-- A map of characters that keeps blanks apart from the rest maps the words. -/
theorem words_map {f : Char → Char} (hf : ∀ c, isWhitespace (f c) = isWhitespace c)
    (text : List Char) : words (text.map f) = (words text).map (List.map f) := by
  have hsplit : (text.map f).splitOnP isWhitespace
      = (text.splitOnP isWhitespace).map (List.map f) := by
    induction text with
    | nil => rfl
    | cons c text ih =>
      rw [List.map_cons, List.splitOnP_cons_eq_if_modifyHead, List.splitOnP_cons_eq_if_modifyHead,
        hf, ih]
      split
      · simp
      · obtain ⟨first, rest, hsplit⟩ :=
          List.exists_cons_of_ne_nil (List.splitOnP_ne_nil isWhitespace text)
        simp [hsplit]
  unfold words
  rw [hsplit, List.filter_map]
  congr 1
  exact List.filter_congr fun w _ => by simp

/-! ## Blank text -/

theorem trim_eq_nil {value : String} :
    trim value = [] ↔ ∀ c ∈ value.toList, isWhitespace c = true := by
  unfold trim
  rw [List.reverse_eq_nil_iff, List.dropWhile_eq_nil_iff]
  constructor
  · intro h
    by_contra hne
    rw [← List.dropWhile_eq_nil_iff] at hne
    have hhead := List.head_dropWhile_not isWhitespace hne
    rw [h _ (List.mem_reverse.mpr (List.head_mem hne))] at hhead
    exact absurd hhead (by simp)
  · intro h c hc
    exact h c ((List.dropWhile_suffix _).subset (List.mem_reverse.mp hc))

theorem words_eq_nil {text : List Char} : words text = [] ↔ ∀ c ∈ text, isWhitespace c = true := by
  induction text with
  | nil => simp [words]
  | cons c text ih =>
    unfold words at ih ⊢
    rw [List.splitOnP_cons_eq_if_modifyHead]
    by_cases hc : isWhitespace c = true
    · rw [if_pos hc, List.filter_cons_of_neg (by simp), ih]
      simp [hc]
    · rw [if_neg hc]
      cases hs : text.splitOnP isWhitespace with
      | nil => exact absurd hs (List.splitOnP_ne_nil _ _)
      | cons word rest => simp [hc]

/-- What is left of a text is nothing just when it is blank. -/
theorem normalizeRequiredString_eq_empty {value : String} :
    normalizeRequiredString value = "" ↔ trim value = [] := by
  rw [trim_eq_nil, ← words_eq_nil]
  unfold normalizeRequiredString
  constructor
  · intro h
    have hjoin : List.intercalate [' '] (words value.toList) = [] := by
      simpa using congrArg String.toList h
    cases hw : words value.toList with
    | nil => rfl
    | cons word rest =>
      have hword : word ≠ [] := by
        have hmem : word ∈ words value.toList := hw ▸ List.mem_cons_self
        simpa using (List.mem_filter.mp hmem).2
      rw [hw] at hjoin
      cases rest with
      | nil => exact absurd (by simpa using hjoin) hword
      | cons next rest =>
        rw [List.intercalate_cons_cons] at hjoin
        simp at hjoin
  · intro h
    rw [h]
    rfl

/-! ## Normalized text -/

@[simp] theorem normalizeRequiredString_idem (value : String) :
    normalizeRequiredString (normalizeRequiredString value) = normalizeRequiredString value := by
  unfold normalizeRequiredString
  rw [String.toList_ofList, words_words]

theorem normalizeOptionalString_some {value : Option String} {v : String}
    (h : normalizeOptionalString value = some v) :
    normalizeRequiredString v = v ∧ v ≠ "" := by
  unfold normalizeOptionalString at h
  rw [Option.filter_eq_some_iff] at h
  obtain ⟨hmap, hne⟩ := h
  obtain ⟨raw, -, rfl⟩ := Option.map_eq_some_iff.mp hmap
  exact ⟨normalizeRequiredString_idem raw, by simpa using hne⟩

/-- What is normalized already stays. -/
theorem normalizeOptionalString_of {v : String} (h : normalizeRequiredString v = v) (hne : v ≠ "") :
    normalizeOptionalString (some v) = some v := by
  simp [normalizeOptionalString, h, hne]

@[simp] theorem normalizeOptionalString_none : normalizeOptionalString none = none := rfl

@[simp] theorem normalizeOptionalString_idem (value : Option String) :
    normalizeOptionalString (normalizeOptionalString value) = normalizeOptionalString value := by
  cases h : normalizeOptionalString value with
  | none => rfl
  | some v =>
    obtain ⟨hv, hne⟩ := normalizeOptionalString_some h
    exact normalizeOptionalString_of hv hne

theorem toNat_toLower (c : Char) :
    c.toLower.toNat = if 65 ≤ c.toNat ∧ c.toNat ≤ 90 then c.toNat + 32 else c.toNat := by
  have hiff : (c.val ≥ 'A'.val ∧ c.val ≤ 'Z'.val) ↔ (65 ≤ c.toNat ∧ c.toNat ≤ 90) := Iff.rfl
  unfold Char.toLower
  by_cases h : c.val ≥ 'A'.val ∧ c.val ≤ 'Z'.val
  · rw [dif_pos h, if_pos (hiff.mp h)]
    have hbound : c.val.toNat ≤ 90 := (hiff.mp h).2
    show (c.val + ('a'.val - 'A'.val)).toNat = c.val.toNat + 32
    rw [UInt32.toNat_add, show ('a'.val - 'A'.val).toNat = 32 from rfl]
    omega
  · rw [dif_neg h, if_neg fun h' => h (hiff.mpr h')]

theorem isWhitespace_toLower (c : Char) : isWhitespace c.toLower = isWhitespace c := by
  unfold isWhitespace
  rw [toNat_toLower]
  split_ifs with h
  · rw [Bool.eq_iff_iff]
    simp only [Bool.or_eq_true, Bool.and_eq_true, decide_eq_true_eq, beq_iff_eq]
    omega
  · rfl

theorem toLower_toLower (c : Char) : c.toLower.toLower = c.toLower := by
  apply Char.toNat_inj.mp
  rw [toNat_toLower c.toLower, if_neg]
  rw [toNat_toLower]
  split_ifs <;> omega

theorem toAsciiLowercase_idem (s : String) :
    toAsciiLowercase (toAsciiLowercase s) = toAsciiLowercase s := by
  unfold toAsciiLowercase
  rw [String.toList_ofList, List.map_map]
  congr 1
  exact List.map_congr_left fun c _ => toLower_toLower c

theorem map_intercalate (f : Char → Char) (hf : f ' ' = ' ') (ws : List (List Char)) :
    (List.intercalate [' '] ws).map f = List.intercalate [' '] (ws.map (List.map f)) := by
  induction ws with
  | nil => rfl
  | cons w ws ih =>
    cases ws with
    | nil => simp [List.intercalate_singleton]
    | cons v ws =>
      rw [List.intercalate_cons_cons, List.map_cons, List.map_cons, List.intercalate_cons_cons,
        ← List.map_cons, ← ih]
      simp [hf]

/-- Letters become lowercase word by word. -/
theorem normalizeRequiredString_toAsciiLowercase (s : String) :
    normalizeRequiredString (toAsciiLowercase s) = toAsciiLowercase (normalizeRequiredString s) := by
  unfold normalizeRequiredString toAsciiLowercase
  rw [String.toList_ofList, String.toList_ofList, words_map isWhitespace_toLower,
    map_intercalate _ (by decide)]

theorem toAsciiLowercase_ne_empty {s : String} (h : s ≠ "") : toAsciiLowercase s ≠ "" := by
  unfold toAsciiLowercase
  intro heq
  have hnil : s.toList.map Char.toLower = [] := by
    rw [← String.toList_ofList (l := s.toList.map Char.toLower), heq]
    rfl
  exact h (String.toList_eq_nil_iff.mp (List.map_eq_nil_iff.mp hnil))

/-- The architecture is one of the known spellings, or the value in lowercase. -/
theorem normalizeArchitecture_cases (value : String) :
    normalizeArchitecture value = "x86_64" ∨ normalizeArchitecture value = "aarch64" ∨
      normalizeArchitecture value = toAsciiLowercase value := by
  unfold normalizeArchitecture
  split
  · exact .inl rfl
  · exact .inl rfl
  · exact .inr (.inl rfl)
  · exact .inr (.inr rfl)

/-- A known spelling stays, and anything else is lowercase already. -/
theorem normalizeArchitecture_idem (value : String) :
    normalizeArchitecture (normalizeArchitecture value) = normalizeArchitecture value := by
  rcases normalizeArchitecture_cases value with h | h | h
  · rw [h]
    decide
  · rw [h]
    decide
  · have hlower : normalizeArchitecture (toAsciiLowercase value) = normalizeArchitecture value := by
      unfold normalizeArchitecture
      rw [toAsciiLowercase_idem]
    rw [h, hlower, h]

theorem normalizeArchitecture_normal {value : String} (h : normalizeRequiredString value = value)
    (hne : value ≠ "") :
    normalizeRequiredString (normalizeArchitecture value) = normalizeArchitecture value
      ∧ normalizeArchitecture value ≠ "" := by
  rcases normalizeArchitecture_cases value with heq | heq | heq
  · rw [heq]
    decide
  · rw [heq]
    decide
  · rw [heq, normalizeRequiredString_toAsciiLowercase, h]
    exact ⟨rfl, toAsciiLowercase_ne_empty hne⟩

/-- An architecture that went through once goes through unchanged. -/
theorem architecture_idem (value : Option String) :
    (normalizeOptionalString ((normalizeOptionalString value).map normalizeArchitecture)).map
      normalizeArchitecture = (normalizeOptionalString value).map normalizeArchitecture := by
  cases h : normalizeOptionalString value with
  | none => rfl
  | some v =>
    obtain ⟨hv, hne⟩ := normalizeOptionalString_some h
    obtain ⟨ha, hane⟩ := normalizeArchitecture_normal hv hne
    rw [Option.map_some, normalizeOptionalString_of ha hane, Option.map_some,
      normalizeArchitecture_idem]

end Lariska
