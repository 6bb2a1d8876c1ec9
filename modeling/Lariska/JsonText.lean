import Lariska.Json

/-!
# Reading JSON strings back

A string can be read off the front of a JSON text: its bytes are escaped one
by one, none of them to a bare quotation mark, and each escape can be read off
what follows. So a text with a string in it tells which string it is, and an
array of strings which array.
-/

namespace Json

/-- The value of a hexadecimal digit. -/
def hexValue (d : UInt8) : UInt8 := if d < 58 then d - 48 else d - 87

/-- The byte escaped at the front of a text, and what follows it. -/
def readByte : List UInt8 → UInt8 × List UInt8
  | 92 :: 117 :: _ :: _ :: high :: low :: rest => (16 * hexValue high + hexValue low, rest)
  | 92 :: 110 :: rest => (10, rest)
  | 92 :: 114 :: rest => (13, rest)
  | 92 :: 116 :: rest => (9, rest)
  | 92 :: 98 :: rest => (8, rest)
  | 92 :: 102 :: rest => (12, rest)
  | 92 :: b :: rest => (b, rest)
  | b :: rest => (b, rest)
  | [] => (0, [])

theorem hexValue_hexDigit : ∀ n < 32,
    16 * hexValue (hexDigit (n / 16)) + hexValue (hexDigit (n % 16)) = UInt8.ofNat n := by
  decide

/-- **An escaped byte is read back.** -/
theorem readByte_escape (b : UInt8) (rest : List UInt8) : readByte (escape b ++ rest) = (b, rest) := by
  unfold escape
  by_cases h₁ : b = byte '"'
  · subst h₁
    rfl
  rw [if_neg h₁]
  by_cases h₂ : b = byte '\\'
  · subst h₂
    rfl
  rw [if_neg h₂]
  by_cases h₃ : b = byte '\n'
  · subst h₃
    rfl
  rw [if_neg h₃]
  by_cases h₄ : b = byte '\r'
  · subst h₄
    rfl
  rw [if_neg h₄]
  by_cases h₅ : b = byte '\t'
  · subst h₅
    rfl
  rw [if_neg h₅]
  by_cases h₆ : b = 8
  · subst h₆
    rfl
  rw [if_neg h₆]
  by_cases h₇ : b = 12
  · subst h₇
    rfl
  rw [if_neg h₇]
  by_cases h₈ : b < 32
  · rw [if_pos h₈]
    have hhex := hexValue_hexDigit b.toNat (UInt8.lt_iff_toNat_lt.mp h₈)
    show (16 * hexValue _ + hexValue _, rest) = (b, rest)
    rw [hhex, UInt8.ofNat_toNat]
  · rw [if_neg h₈]
    have hslash : b ≠ 92 := h₂
    show readByte (b :: rest) = (b, rest)
    unfold readByte
    split <;> simp_all

/-- No escape starts with a quotation mark. -/
theorem escape_head (b : UInt8) (rest : List UInt8) :
    ∃ c tail, escape b ++ rest = c :: tail ∧ c ≠ byte '"' := by
  unfold escape
  split_ifs with h₁
  all_goals first | exact ⟨_, _, rfl, by decide⟩ | exact ⟨b, rest, rfl, h₁⟩

/-- **A string is read off the front of a text.** -/
theorem escaped_append_inj {s t r r' : List UInt8}
    (h : s.flatMap escape ++ byte '"' :: r = t.flatMap escape ++ byte '"' :: r') :
    s = t ∧ r = r' := by
  induction s generalizing t with
  | nil =>
    cases t with
    | nil => exact ⟨rfl, (List.cons.inj h).2⟩
    | cons c t =>
      rw [List.flatMap_cons, List.append_assoc] at h
      obtain ⟨d, tail, heq, hd⟩ := escape_head c (t.flatMap escape ++ byte '"' :: r')
      rw [heq] at h
      exact absurd (List.cons.inj h).1.symm hd
  | cons b s ih =>
    cases t with
    | nil =>
      rw [List.flatMap_cons, List.append_assoc] at h
      obtain ⟨d, tail, heq, hd⟩ := escape_head b (s.flatMap escape ++ byte '"' :: r)
      rw [heq] at h
      exact absurd (List.cons.inj h).1 hd
    | cons c t =>
      rw [List.flatMap_cons, List.flatMap_cons, List.append_assoc, List.append_assoc] at h
      have hread := congrArg readByte h
      rw [readByte_escape, readByte_escape] at hread
      obtain ⟨hbc, hrest⟩ := Prod.mk.inj hread
      obtain ⟨hst, hr⟩ := ih hrest
      exact ⟨by rw [hbc, hst], hr⟩

theorem bytes_inj {s t : String} (h : bytes s = bytes t) : s = t :=
  String.toByteArray_inj.mp (ByteArray.ext (Array.toList_inj.mp h))

theorem str_append_inj {s t : String} {r r' : List UInt8} (h : str s ++ r = str t ++ r') :
    s = t ∧ r = r' := by
  unfold str at h
  simp only [List.cons_append, List.append_assoc] at h
  obtain ⟨hst, hr⟩ := escaped_append_inj (List.cons.inj h).2
  exact ⟨bytes_inj hst, hr⟩

theorem str_ne_nil (s : String) : str s ≠ [] := List.cons_ne_nil _ _

theorem separated_str_inj {ss ts : List String}
    (h : separated (ss.map str) = separated (ts.map str)) : ss = ts := by
  induction ss generalizing ts with
  | nil =>
    match ts, h with
    | [], _ => rfl
    | [t], h => exact absurd h.symm (str_ne_nil t)
    | t :: u :: ts, h => exact absurd h.symm (by simp [separated])
  | cons s ss ih =>
    match ss, ts, h with
    | [], [], h => exact absurd h (str_ne_nil s)
    | _ :: _, [], h => exact absurd h (by simp [separated])
    | [], [t], h =>
      rw [(str_append_inj (congrArg (· ++ []) h)).1]
    | [], t :: u :: ts, h =>
      have hrest := (str_append_inj ((List.append_nil _).trans h)).2
      exact absurd hrest (List.cons_ne_nil _ _).symm
    | _ :: _, [t], h =>
      have hrest := (str_append_inj (h.trans (List.append_nil _).symm)).2
      exact absurd hrest (List.cons_ne_nil _ _)
    | s' :: ss, u :: t :: ts, h =>
      obtain ⟨hsu, hrest⟩ := str_append_inj h
      have htail : separated ((s' :: ss).map str) = separated ((t :: ts).map str) :=
        (List.cons.inj hrest).2
      rw [hsu, ih htail]

/-- **An array of strings tells its strings.** -/
theorem array_str_inj {ss ts : List String} (h : array (ss.map str) = array (ts.map str)) :
    ss = ts := by
  unfold array at h
  exact separated_str_inj (List.append_cancel_right (List.cons.inj h).2)

/-- Where a field of an object stands does not depend on its value. -/
theorem separated_split (front : List (List UInt8)) (back : List (List UInt8)) :
    ∃ p q, ∀ x, separated (front ++ x :: back) = p ++ x ++ q := by
  induction front with
  | nil =>
    cases back with
    | nil => exact ⟨[], [], fun x => by simp [separated]⟩
    | cons y back => exact ⟨[], byte ',' :: separated (y :: back), fun x => rfl⟩
  | cons f front ih =>
    obtain ⟨p, q, hsplit⟩ := ih
    refine ⟨f ++ byte ',' :: p, q, fun x => ?_⟩
    have hcons : separated (f :: (front ++ x :: back))
        = f ++ byte ',' :: separated (front ++ x :: back) := by
      cases front <;> rfl
    rw [List.cons_append, hcons, hsplit]
    simp

/-- **An object tells the value of each field**, the others being the same. -/
theorem object_field_inj (front : List (String × List UInt8)) {back : List (String × List UInt8)}
    {name : String} {x y : List UInt8}
    (h : object (front ++ (name, x) :: back) = object (front ++ (name, y) :: back)) : x = y := by
  unfold object at h
  simp only [List.map_append, List.map_cons] at h
  obtain ⟨p, q, hsplit⟩ := separated_split (front.map fun f => str f.1 ++ byte ':' :: f.2)
    (back.map fun f => str f.1 ++ byte ':' :: f.2)
  rw [hsplit, hsplit] at h
  have hmid := List.append_cancel_right (List.append_cancel_right (List.cons.inj h).2)
  exact (List.cons.inj (List.append_cancel_left (List.append_cancel_left hmid))).2

end Json
