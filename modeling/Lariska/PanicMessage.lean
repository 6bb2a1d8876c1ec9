import Lariska.ClientCertificate

/-!
# What a crash report says

The panic hook bounds the message it writes down. It counts characters to see
whether the message is too long and bytes to cut it, where `sanitize_detail`,
which bounds the body of a response in the same way, counts characters for
both. The two agree on the messages whose first characters take one byte each.
On the others the hook keeps fewer characters, or panics itself, which it does
when the cut falls inside a character; the process is then aborted before the
report is written.
-/

namespace Lariska

open Mtls (sanitizeDetail)

/-- `String::truncate`, of the characters of a text: up to so many bytes are
kept. It panics when they end inside a character. -/
def truncate : Nat → List Char → Option (List Char)
  | _, [] => some []
  | 0, _ :: _ => some []
  | n + 1, c :: cs =>
    if c.utf8Size ≤ n + 1 then (truncate (n + 1 - c.utf8Size) cs).map (c :: ·) else none

/-- `sanitize_panic_message`. -/
def sanitizePanicMessage (message : String) : Option String :=
  let sanitized := trim message
  if sanitized.length > 500 then
    (truncate 500 sanitized).map fun kept => String.ofList kept ++ "... (truncated)"
  else some (String.ofList sanitized)

/-- **The message is bounded as a response is**: what is written down is some
five hundred characters of it at most, those it begins with, and that there
are more where there are. -/
def BoundedLikeDetail (message : String) : Prop :=
  ∃ kept, kept.length ≤ 500 ∧ kept <+: trim message ∧
    sanitizePanicMessage message
      = some (String.ofList kept ++ if (trim message).length > 500 then "... (truncated)" else "") ∧
    sanitizePanicMessage message = some (sanitizeDetail message)

/-! ## Characters of one byte -/

variable {n : Nat} {text : List Char}

/-- No more characters are kept than bytes. -/
theorem length_le_of_truncate {kept : List Char} (h : truncate n text = some kept) :
    kept.length ≤ n := by
  induction text generalizing n kept with
  | nil =>
    cases h
    exact Nat.zero_le n
  | cons c cs ih =>
    cases n with
    | zero =>
      cases h
      exact le_refl 0
    | succ n =>
      unfold truncate at h
      have hc := c.utf8Size_pos
      split_ifs at h
      obtain ⟨rest, hrest, rfl⟩ := Option.map_eq_some_iff.mp h
      have := ih hrest
      rw [List.length_cons]
      omega

theorem truncate_of_ascii (h : ∀ c ∈ text.take n, c.utf8Size = 1) :
    truncate n text = some (text.take n) := by
  induction text generalizing n with
  | nil => rw [List.take_nil, truncate]
  | cons c cs ih =>
    cases n with
    | zero => rfl
    | succ n =>
      rw [List.take_succ_cons] at h ⊢
      have hc : c.utf8Size = 1 := h c List.mem_cons_self
      unfold truncate
      rw [hc, if_pos (Nat.le_add_left 1 n), Nat.add_sub_cancel,
        ih fun d hd => h d (List.mem_cons_of_mem c hd)]
      rfl

/-- Bytes and characters come to the same place only if each character is one
byte. -/
theorem ascii_of_truncate (hlong : n ≤ text.length) (h : truncate n text = some (text.take n)) :
    ∀ c ∈ text.take n, c.utf8Size = 1 := by
  induction text generalizing n with
  | nil =>
    rw [List.take_nil]
    exact fun _ hc => absurd hc List.not_mem_nil
  | cons c cs ih =>
    cases n with
    | zero => exact fun _ hc => absurd hc List.not_mem_nil
    | succ n =>
      rw [List.length_cons] at hlong
      rw [List.take_succ_cons] at h ⊢
      unfold truncate at h
      split_ifs at h
      obtain ⟨rest, hrest, hcons⟩ := Option.map_eq_some_iff.mp h
      obtain rfl : rest = cs.take n := (List.cons.inj hcons).2
      -- The rest has as many characters as it may have bytes.
      have hbytes := length_le_of_truncate hrest
      rw [List.length_take, min_eq_left (Nat.le_of_succ_le_succ hlong)] at hbytes
      have hc : c.utf8Size = 1 := by
        have := c.utf8Size_pos
        omega
      rw [hc, Nat.add_sub_cancel] at hrest
      intro d hd
      rcases List.mem_cons.mp hd with rfl | hd
      · exact hc
      · exact ih (Nat.le_of_succ_le_succ hlong) hrest d hd

/-- **When the hook bounds a message as it should**: it is no longer than five
hundred characters, or the first five hundred take one byte each. -/
theorem boundedLikeDetail_iff (message : String) :
    BoundedLikeDetail message ↔
      (trim message).length ≤ 500 ∨ ∀ c ∈ (trim message).take 500, c.utf8Size = 1 := by
  by_cases hlong : (trim message).length > 500
  · have hshort : ¬ (trim message).length ≤ Mtls.maxErrorDetailChars := not_le.mpr hlong
    unfold BoundedLikeDetail sanitizePanicMessage sanitizeDetail
    simp only [if_pos hlong, if_neg hshort]
    rw [or_iff_right (not_le.mpr hlong)]
    constructor
    · rintro ⟨-, -, -, -, hsame⟩
      obtain ⟨kept, hkept, heq⟩ := Option.map_eq_some_iff.mp hsame
      have hcut : kept = (trim message).take 500 :=
        String.ofList_injective ((String.append_left_inj _).mp heq)
      exact ascii_of_truncate hlong.le (hcut ▸ hkept)
    · intro h
      have hcut := truncate_of_ascii h
      refine ⟨(trim message).take 500, List.length_take_le _ _, List.take_prefix _ _, ?_, ?_⟩
      · rw [hcut, Option.map_some]
      · rw [hcut, Option.map_some]
        rfl
  · have hshort : (trim message).length ≤ 500 := not_lt.mp hlong
    refine iff_of_true ⟨trim message, hshort, List.prefix_refl _, ?_, ?_⟩ (.inl hshort)
    · unfold sanitizePanicMessage
      simp only [if_neg hlong]
      rw [String.append_empty]
    · unfold sanitizePanicMessage sanitizeDetail
      simp only [if_neg hlong]
      rw [if_pos (show (trim message).length ≤ Mtls.maxErrorDetailChars from hshort)]

namespace Sample

/-- A letter of one byte and five hundred of two. -/
def cyrillic : String := String.ofList ('x' :: List.replicate 500 'я')

/-- The hook panics: its cut falls inside a letter. -/
theorem cyrillic_not_bounded :
    sanitizePanicMessage cyrillic = none ∧ ¬ BoundedLikeDetail cyrillic := by
  have htrim : trim cyrillic = 'x' :: List.replicate 500 'я' := by
    unfold trim cyrillic
    rw [String.toList_ofList]
    decide +kernel
  have hnone : sanitizePanicMessage cyrillic = none := by
    unfold sanitizePanicMessage
    rw [htrim]
    decide +kernel
  refine ⟨hnone, ?_⟩
  rintro ⟨_, _, _, hsome, _⟩
  rw [hnone] at hsome
  cases hsome

end Sample

end Lariska
