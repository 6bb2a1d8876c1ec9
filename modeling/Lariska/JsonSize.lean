import Lariska.Json

/-!
# The size of JSON text

How many bytes a document takes. The punctuation of an object or an array
depends only on the number of its parts, so a size is a sum over the parts;
what varies is the text of the strings, where an escaped byte takes up to six
bytes, and the digits of the numbers.
-/

namespace Json

/-- The bytes of a string once they are escaped. -/
def escapedSize (s : String) : Nat := ((bytes s).map fun b => (escape b).length).sum

/-- The byte stands for itself inside a JSON string. -/
def plain (b : UInt8) : Bool := 32 ≤ b && b ≠ byte '"' && b ≠ byte '\\'

theorem escape_length_le (b : UInt8) : (escape b).length ≤ 6 := by
  unfold escape
  split_ifs <;> simp

theorem escape_of_plain {b : UInt8} (h : plain b = true) : escape b = [b] := by
  have below : ∀ c : UInt8, c < 32 → b ≠ c := by
    rintro c hc rfl
    simp only [plain, Bool.and_eq_true, decide_eq_true_eq] at h
    exact absurd h.1.1 (UInt8.not_le.mpr hc)
  unfold escape
  simp only [plain, Bool.and_eq_true, decide_eq_true_eq] at h
  rw [if_neg h.1.2, if_neg h.2, if_neg (below _ (by decide)), if_neg (below _ (by decide)),
    if_neg (below _ (by decide)), if_neg (below _ (by decide)), if_neg (below _ (by decide)),
    if_neg (UInt8.not_lt.mpr h.1.1)]

/-! ## Strings and numbers -/

theorem length_bytes (s : String) : (bytes s).length = s.utf8ByteSize := rfl

/-- The bytes of a string are those of its characters. -/
theorem bytes_eq_flatMap (s : String) : bytes s = s.toList.flatMap String.utf8EncodeChar := by
  unfold bytes
  rw [← String.utf8Encode_toList, List.utf8Encode, List.data_toByteArray]

theorem length_str (s : String) : (str s).length = escapedSize s + 2 := by
  unfold str escapedSize
  rw [List.length_cons, List.length_append, List.length_flatMap, List.length_singleton]

theorem escapedSize_le (s : String) : escapedSize s ≤ 6 * s.utf8ByteSize := by
  unfold escapedSize
  rw [← length_bytes]
  induction bytes s with
  | nil => simp
  | cons b rest ih =>
    have hb := escape_length_le b
    rw [List.map_cons, List.sum_cons, List.length_cons]
    omega

/-- A character repeated takes its own size as many times. -/
theorem escapedSize_replicate (n : Nat) (c : Char) :
    escapedSize (String.ofList (List.replicate n c))
      = n * ((String.utf8EncodeChar c).map fun b => (escape b).length).sum := by
  unfold escapedSize
  rw [bytes_eq_flatMap, String.toList_ofList]
  induction n with
  | zero => simp
  | succ n ih =>
    rw [List.replicate_succ, List.flatMap_cons, List.map_append, List.sum_append, ih,
      Nat.add_mul, Nat.one_mul, Nat.add_comm]

/-- **Plain text takes its own length.** -/
theorem escapedSize_of_plain {s : String} (h : (bytes s).all plain = true) :
    escapedSize s = s.utf8ByteSize := by
  unfold escapedSize
  rw [← length_bytes]
  revert h
  induction bytes s with
  | nil => exact fun _ => rfl
  | cons b rest ih =>
    intro h
    rw [List.all_cons, Bool.and_eq_true] at h
    have hrest := ih h.2
    have hb : (escape b).length = 1 := by rw [escape_of_plain h.1, List.length_singleton]
    rw [List.map_cons, List.sum_cons, List.length_cons]
    omega

/-- An ASCII character is one byte. -/
theorem utf8EncodeChar_of_ascii {c : Char} (h : c.toNat < 128) :
    String.utf8EncodeChar c = [byte c] := by
  have hle : c.val.toNat ≤ 0x7f := Nat.le_of_lt_succ h
  unfold String.utf8EncodeChar
  dsimp only
  rw [if_pos hle]
  rfl

theorem toNat_lt_of_isDigit {c : Char} (h : c.isDigit = true) : c.toNat < 128 := by
  simp only [Char.isDigit, Bool.and_eq_true, decide_eq_true_eq] at h
  have hle : c.toNat ≤ 57 := UInt32.le_iff_toNat_le.mp h.2
  omega

/-- A number is written as it is printed. -/
theorem bytes_toString (n : Nat) : bytes (toString n) = nat n := by
  have hdigits : (toString n).toList = Nat.toDigits 10 n := String.toList_ofList
  have hbyte : ∀ c ∈ Nat.toDigits 10 n, String.utf8EncodeChar c = [byte c] := fun c hc =>
    utf8EncodeChar_of_ascii
      (toNat_lt_of_isDigit (Nat.isDigit_of_mem_toDigits (by decide) (by decide) hc))
  rw [bytes_eq_flatMap, hdigits, nat]
  revert hbyte
  induction Nat.toDigits 10 n with
  | nil => exact fun _ => rfl
  | cons c rest ih =>
    intro hbyte
    rw [List.flatMap_cons, List.map_cons, hbyte c (List.mem_cons_self ..),
      ih fun d hd => hbyte d (List.mem_cons_of_mem c hd)]
    rfl

theorem length_nat (n : Nat) : (nat n).length = (Nat.toDigits 10 n).length := List.length_map _

/-- The digits of a number below a power of ten. -/
theorem length_nat_le {n k : Nat} (hk : 0 < k) (h : n < 10 ^ k) : (nat n).length ≤ k := by
  rw [length_nat]
  exact Nat.toDigits_length 10 n k hk h

/-- A machine word has at most twenty digits. -/
theorem length_nat_le_of_u64 {n : Nat} (h : n < 2 ^ 64) : (nat n).length ≤ 20 :=
  length_nat_le (by decide) (h.trans (by decide))

/-! ## Arrays and objects -/

theorem length_separated (items : List (List UInt8)) :
    (separated items).length = (items.map List.length).sum + (items.length - 1) := by
  induction items with
  | nil => rfl
  | cons x rest ih =>
    cases rest with
    | nil => simp [separated]
    | cons y rest =>
      have hlast : (y :: rest).length - 1 + 1 = (y :: rest).length := rfl
      have hsum : ((x :: y :: rest).map List.length).sum
          = x.length + ((y :: rest).map List.length).sum := rfl
      have hcount : (x :: y :: rest).length - 1 = (y :: rest).length := rfl
      rw [separated, List.length_append, List.length_cons, ih, hsum, hcount, ← hlast]
      omega

theorem length_array (items : List (List UInt8)) :
    (array items).length = (items.map List.length).sum + (items.length - 1) + 2 := by
  unfold array
  rw [List.length_cons, List.length_append, length_separated, List.length_singleton]

theorem length_object (fields : List (String × List UInt8)) :
    (object fields).length
      = (fields.map fun f => escapedSize f.1 + f.2.length + 3).sum + (fields.length - 1) + 2 := by
  unfold object
  rw [List.length_cons, List.length_append, length_separated, List.length_singleton,
    List.map_map, List.length_map]
  have hfield : List.length ∘ (fun f : String × List UInt8 => str f.1 ++ byte ':' :: f.2)
      = fun f => escapedSize f.1 + f.2.length + 3 := by
    funext f
    show (str f.1 ++ byte ':' :: f.2).length = _
    rw [List.length_append, length_str, List.length_cons]
    omega
  rw [hfield]

/-! ## ASCII -/

/-- What holds of all numbers below 256 holds of all bytes. -/
theorem forall_byte {p : UInt8 → Prop} (h : ∀ n < 256, p (UInt8.ofNat n)) (b : UInt8) : p b := by
  have hb := h b.toNat b.toNat_lt
  rwa [UInt8.ofNat_toNat] at hb

/-- What holds of all numbers below 128 holds of all characters of ASCII. -/
theorem forall_ascii {p : Char → Prop} (h : ∀ n < 128, p (Char.ofNat n)) {c : Char}
    (hc : c.toNat < 128) : p c := by
  have hchar := h c.toNat hc
  rwa [Char.ofNat_toNat] at hchar

theorem le_ofNat {n : Nat} (h : 128 ≤ n) (hn : n < 256) : 128 ≤ UInt8.ofNat n := by
  rw [UInt8.le_iff_toNat_le, UInt8.toNat_ofNat_of_lt' hn]
  exact h

/-- A character whose encoding is ASCII is one. -/
theorem toNat_lt_of_ascii {c : Char} (h : ∀ b ∈ String.utf8EncodeChar c, b < 128) :
    c.toNat < 128 := by
  by_contra hc
  have hlead : ∃ b ∈ String.utf8EncodeChar c, 128 ≤ b := by
    have hle : ¬ c.val.toNat ≤ 0x7f := fun hle => hc (Nat.lt_succ_of_le hle)
    unfold String.utf8EncodeChar
    dsimp only
    rw [if_neg hle]
    split
    · exact ⟨_, List.mem_cons_self, le_ofNat (by omega) (by omega)⟩
    · split
      · exact ⟨_, List.mem_cons_self, le_ofNat (by omega) (by omega)⟩
      · exact ⟨_, List.mem_cons_self, le_ofNat (by omega) (by omega)⟩
  obtain ⟨b, hb, hle⟩ := hlead
  exact absurd (h b hb) (UInt8.not_lt.mpr hle)

/-- **A text of ASCII bytes** is one of ASCII characters. -/
theorem toNat_lt_of_bytes {s : String} (h : ∀ b ∈ bytes s, b < 128) {c : Char}
    (hc : c ∈ s.toList) : c.toNat < 128 := by
  rw [bytes_eq_flatMap] at h
  exact toNat_lt_of_ascii fun b hb => h b (List.mem_flatMap.mpr ⟨c, hc, hb⟩)

theorem byte_mem_bytes {s : String} {c : Char} (hc : c ∈ s.toList) (h : c.toNat < 128) :
    byte c ∈ bytes s := by
  rw [bytes_eq_flatMap]
  exact List.mem_flatMap.mpr ⟨c, hc, by rw [utf8EncodeChar_of_ascii h]; exact List.mem_cons_self⟩

end Json
