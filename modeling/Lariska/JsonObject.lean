import Lariska.JsonSize
import Lariska.JsonText

/-!
# Reading objects back

A reader of JSON objects whose members are strings and unsigned integers, as
the grammar has them: white space between tokens, every escape of a string,
surrogate pairs included, and numbers without leading zeros. What
`Json.object` writes of such members is read back as they are
(`readObject_object`), so that two documents with the same text are the same.
-/

namespace Json

/-- The value of a member. -/
inductive Scalar where
  | nat (n : Nat)
  | str (s : String)
deriving DecidableEq

def Scalar.encode : Scalar → List UInt8
  | .nat n => Json.nat n
  | .str s => Json.str s

/-- A document of such members. -/
def document (members : List (String × Scalar)) : List UInt8 :=
  object (members.map fun m => (m.1, m.2.encode))

/-! ## The reader -/

def isSpace (b : UInt8) : Bool := b == 32 || b == 10 || b == 13 || b == 9

def skipSpace (text : List UInt8) : List UInt8 := text.dropWhile isSpace

/-- The value of a hexadecimal digit, if it is one. -/
def hexDigitValue (b : UInt8) : Option Nat :=
  if byte '0' ≤ b ∧ b ≤ byte '9' then some (b.toNat - 48)
  else if byte 'a' ≤ b ∧ b ≤ byte 'f' then some (b.toNat - 87)
  else if byte 'A' ≤ b ∧ b ≤ byte 'F' then some (b.toNat - 55)
  else none

/-- What a single letter after a backslash stands for. -/
def unescape (b : UInt8) : Option UInt8 :=
  if b = byte '"' ∨ b = byte '\\' ∨ b = byte '/' then some b
  else if b = byte 'b' then some 8
  else if b = byte 'f' then some 12
  else if b = byte 'n' then some 10
  else if b = byte 'r' then some 13
  else if b = byte 't' then some 9
  else none

/-- Where a reader is in a string. -/
inductive Reading where
  | plain
  /-- After a backslash. -/
  | escape
  /-- In a code unit: the digits to come after the next, the value of those
  read, and the high surrogate before it. -/
  | unit (more value : Nat) (high : Option Nat)
  /-- After a high surrogate, at the backslash and the `u` of a low one. -/
  | lowEscape (high : Nat)
  | lowUnit (high : Nat)

/-- The character of a code unit, or of two; half a pair is none. -/
def codeUnit (value : Nat) : Option Nat → Option Char
  | none => if 0xD800 ≤ value ∧ value < 0xE000 then none else some (Char.ofNat value)
  | some high =>
    if 0xDC00 ≤ value ∧ value < 0xE000 then
      some (Char.ofNat (0x10000 + (high - 0xD800) * 0x400 + (value - 0xDC00)))
    else none

/-- The text up to the closing quotation mark, and what follows that. -/
def readText : Reading → List UInt8 → Option (List UInt8 × List UInt8)
  | _, [] => none
  | .plain, b :: rest =>
    if b = byte '"' then some ([], rest)
    else if b = byte '\\' then readText .escape rest
    else if b < 32 then none
    else (readText .plain rest).map fun (text, rest) => (b :: text, rest)
  | .escape, b :: rest =>
    if b = byte 'u' then readText (.unit 3 0 none) rest
    else (unescape b).bind fun c =>
      (readText .plain rest).map fun (text, rest) => (c :: text, rest)
  | .unit (more + 1) value high, b :: rest => (hexDigitValue b).bind fun digit =>
      readText (.unit more (16 * value + digit) high) rest
  | .unit 0 value high, b :: rest => (hexDigitValue b).bind fun digit =>
      let unit := 16 * value + digit
      if high = none ∧ 0xD800 ≤ unit ∧ unit < 0xDC00 then readText (.lowEscape unit) rest
      else (codeUnit unit high).bind fun c =>
        (readText .plain rest).map fun (text, rest) => (String.utf8EncodeChar c ++ text, rest)
  | .lowEscape high, b :: rest => if b = byte '\\' then readText (.lowUnit high) rest else none
  | .lowUnit high, b :: rest =>
    if b = byte 'u' then readText (.unit 3 0 (some high)) rest else none

/-- A string, its bytes being UTF-8. -/
def readString : List UInt8 → Option (String × List UInt8)
  | [] => none
  | b :: rest =>
    if b = byte '"' then
      (readText .plain rest).bind fun (text, rest) =>
        (String.fromUTF8? ⟨text.toArray⟩).map fun s => (s, rest)
    else none

def isDigit (b : UInt8) : Bool := byte '0' ≤ b && b ≤ byte '9'

/-- An unsigned integer without leading zeros, and without a fraction or an
exponent after it. -/
def readNat (text : List UInt8) : Option (Nat × List UInt8) :=
  let digits := text.takeWhile isDigit
  let rest := text.dropWhile isDigit
  if digits = [] ∨ digits.head? = some (byte '0') ∧ digits.length ≠ 1
      ∨ rest.head? = some (byte '.') ∨ rest.head? = some (byte 'e')
      ∨ rest.head? = some (byte 'E') then none
  else some (digits.foldl (fun n d => 10 * n + (d.toNat - 48)) 0, rest)

def readScalar (text : List UInt8) : Option (Scalar × List UInt8) :=
  if text.head? = some (byte '"') then
    (readString text).map fun (s, rest) => (.str s, rest)
  else (readNat text).map fun (n, rest) => (.nat n, rest)

/-- A key, a colon and a value. -/
def readMember (text : List UInt8) : Option ((String × Scalar) × List UInt8) :=
  (readString text).bind fun (key, rest) =>
    match skipSpace rest with
    | 58 :: rest => (readScalar (skipSpace rest)).map fun (value, rest) =>
        ((key, value), skipSpace rest)
    | _ => none

/-- Members up to the closing brace, and what follows that. -/
def readMembers : Nat → List UInt8 → Option (List (String × Scalar) × List UInt8)
  | 0, _ => none
  | fuel + 1, text => (readMember text).bind fun (member, rest) =>
    match rest with
    | 44 :: rest => (readMembers fuel (skipSpace rest)).map fun (members, rest) =>
        (member :: members, rest)
    | 125 :: rest => some ([member], rest)
    | _ => none

/-- The members of an object, in the order of the text. -/
def readObject (text : List UInt8) : Option (List (String × Scalar)) :=
  match skipSpace text with
  | 123 :: rest =>
    (match skipSpace rest with
    | 125 :: rest => some ([], rest)
    | text => readMembers text.length text).bind fun (members, rest) =>
      if skipSpace rest = [] then some members else none
  | _ => none

/-! ## Strings -/

theorem skipSpace_cons {b : UInt8} (h : isSpace b = false) (rest : List UInt8) :
    skipSpace (b :: rest) = b :: rest := by
  rw [skipSpace, List.dropWhile_cons_of_neg (by rw [h]; decide)]

theorem hexDigitValue_hexDigit : ∀ n < 16, hexDigitValue (hexDigit n) = some n := by decide

theorem utf8EncodeChar_ofNat {n : Nat} (h : n < 128) :
    String.utf8EncodeChar (Char.ofNat n) = [UInt8.ofNat n] := by
  have hchar : (Char.ofNat n).toNat = n := by
    rw [Char.ofNat, dif_pos (.inl (by omega))]
    rfl
  rw [utf8EncodeChar_of_ascii (hchar.symm ▸ h), byte, hchar]

/-- A control character is read from its code unit. -/
theorem readText_unit {n : Nat} (h : n < 32) (rest : List UInt8) :
    readText (.unit 3 0 none)
        (byte '0' :: byte '0' :: hexDigit (n / 16) :: hexDigit (n % 16) :: rest)
      = (readText .plain rest).map fun (text, rest) => (UInt8.ofNat n :: text, rest) := by
  have hzero : hexDigitValue (byte '0') = some 0 := by decide
  have hvalue : 16 * (16 * (16 * (16 * 0 + 0) + 0) + n / 16) + n % 16 = n := by omega
  simp only [readText, hzero, hexDigitValue_hexDigit _ (show n / 16 < 16 by omega),
    hexDigitValue_hexDigit _ (show n % 16 < 16 by omega), Option.bind_some, hvalue]
  rw [if_neg (by omega), codeUnit, if_neg (by omega), Option.bind_some,
    utf8EncodeChar_ofNat (by omega)]
  rfl

/-- **An escaped byte is read.** -/
theorem readText_escape (b : UInt8) (rest : List UInt8) :
    readText .plain (escape b ++ rest)
      = (readText .plain rest).map fun (text, rest) => (b :: text, rest) := by
  unfold escape
  by_cases h₁ : b = byte '"'
  · subst h₁
    rfl
  rw [if_neg h₁]
  by_cases h₂ : b = byte '\\'
  · subst h₂
    rfl
  rw [if_neg h₂]
  by_cases h₃ : b = byte '\n'
  · subst h₃
    rfl
  rw [if_neg h₃]
  by_cases h₄ : b = byte '\r'
  · subst h₄
    rfl
  rw [if_neg h₄]
  by_cases h₅ : b = byte '\t'
  · subst h₅
    rfl
  rw [if_neg h₅]
  by_cases h₆ : b = 8
  · subst h₆
    rfl
  rw [if_neg h₆]
  by_cases h₇ : b = 12
  · subst h₇
    rfl
  rw [if_neg h₇]
  by_cases h₈ : b < 32
  · rw [if_pos h₈]
    have hunit := readText_unit (UInt8.lt_iff_toNat_lt.mp h₈) rest
    rw [UInt8.ofNat_toNat] at hunit
    exact hunit
  · rw [if_neg h₈, List.singleton_append, readText, if_neg h₁, if_neg h₂, if_neg h₈]

theorem readText_escaped (text rest : List UInt8) :
    readText .plain (text.flatMap escape ++ byte '"' :: rest) = some (text, rest) := by
  induction text with
  | nil => rfl
  | cons b text ih =>
    rw [List.flatMap_cons, List.append_assoc, readText_escape, ih]
    rfl

/-- **A string is read back.** -/
theorem readString_str (s : String) (rest : List UInt8) :
    readString (str s ++ rest) = some (s, rest) := by
  have hvalid : (⟨(bytes s).toArray⟩ : ByteArray) = s.toByteArray := rfl
  unfold str readString
  rw [List.cons_append, List.append_assoc, List.singleton_append]
  dsimp only
  rw [if_pos rfl, readText_escaped, Option.bind_some, hvalid, String.fromUTF8?,
    dif_pos s.isValidUTF8]
  rfl

/-! ## Numbers -/

/-- What can follow a value in an object. -/
def Closes (b : UInt8) : Prop := b = 44 ∨ b = 125

theorem Closes.not_space {b : UInt8} (h : Closes b) : isSpace b = false := by
  rcases h with rfl | rfl <;> decide

theorem isSpace_of_isDigit {b : UInt8} (h : isDigit b = true) : isSpace b = false := by
  by_contra hspace
  simp only [isSpace, Bool.not_eq_false, Bool.or_eq_true, beq_iff_eq] at hspace
  rcases hspace with ((rfl | rfl) | rfl) | rfl <;> exact absurd h (by decide)

theorem isDigit_byte {c : Char} (h : c.isDigit = true) : isDigit (byte c) = true := by
  exact forall_ascii (p := fun c => c.isDigit = true → isDigit (byte c) = true) (by decide)
    (toNat_lt_of_isDigit h) h

theorem isDigit_of_mem_nat {n : Nat} {b : UInt8} (h : b ∈ nat n) : isDigit b = true := by
  obtain ⟨c, hc, rfl⟩ := List.mem_map.mp h
  exact isDigit_byte (Nat.isDigit_of_mem_toDigits (by decide) (by decide) hc)

/-- Only zero is written with a leading zero. -/
theorem nat_head_ne_zero {n : Nat} (hn : n ≠ 0) : (nat n).head? ≠ some (byte '0') := by
  induction n using Nat.strongRecOn with
  | _ n ih =>
    rw [nat, Nat.toDigits_eq_if (by decide)]
    by_cases hlt : n < 10
    · rw [if_pos hlt]
      have hall : ∀ n < 10, n ≠ 0 → ([n.digitChar].map byte).head? ≠ some (byte '0') := by decide
      exact hall n hlt hn
    · have hne : (Nat.toDigits 10 (n / 10)).map byte ≠ [] := fun h =>
        Nat.toDigits_ne_nil (List.map_eq_nil_iff.mp h)
      rw [if_neg hlt, List.map_append, List.head?_append_of_ne_nil _ hne]
      exact ih (n / 10) (by omega) (by omega)

/-- The digits of a number, read as `readNat` reads them. -/
theorem foldl_nat (n : Nat) : (nat n).foldl (fun n d => 10 * n + (d.toNat - 48)) 0 = n := by
  have hdigits : ∀ c ∈ Nat.toDigits 10 n, (byte c).toNat = c.toNat := fun c hc => by
    have hlt := toNat_lt_of_isDigit (Nat.isDigit_of_mem_toDigits (by decide) (by decide) hc)
    rw [byte, UInt8.toNat_ofNat_of_lt' (hlt.trans (by decide))]
  have hfold : (nat n).foldl (fun n d => 10 * n + (d.toNat - 48)) 0
      = Nat.ofDigitChars 10 (Nat.toDigits 10 n) 0 := by
    unfold nat Nat.ofDigitChars
    rw [List.foldl_map]
    refine List.foldl_ext _ _ _ fun a c hc => ?_
    rw [hdigits c hc]
    rfl
  rw [hfold, Nat.ofDigitChars_ten_toDigits]

/-- A number ends before this: no digit, fraction or exponent follows. -/
def Stops (rest : List UInt8) : Prop :=
  ∀ b ∈ rest.head?, isDigit b = false ∧ b ≠ byte '.' ∧ b ≠ byte 'e' ∧ b ≠ byte 'E'

theorem stops_nil : Stops [] := by simp [Stops]

theorem stops_cons {b : UInt8} (h : b = 44 ∨ b = 93 ∨ b = 125) (rest : List UInt8) :
    Stops (b :: rest) := by
  intro c hc
  obtain rfl : b = c := by simpa using hc
  obtain rfl | rfl | rfl := h <;> decide

/-- **A number is read back** wherever it ends. -/
theorem readNat_nat (n : Nat) {rest : List UInt8} (h : Stops rest) :
    readNat (nat n ++ rest) = some (n, rest) := by
  have hdigits : ∀ b ∈ nat n, isDigit b = true := fun _ => isDigit_of_mem_nat
  have htake : (nat n ++ rest).takeWhile isDigit = nat n := by
    have hrest : rest.takeWhile isDigit = [] := by
      cases rest with
      | nil => rfl
      | cons b rest => exact List.takeWhile_cons_of_neg (by simp [(h b rfl).1])
    rw [List.takeWhile_append_of_pos hdigits, hrest, List.append_nil]
  have hdrop : (nat n ++ rest).dropWhile isDigit = rest := by
    rw [List.dropWhile_append_of_pos hdigits]
    cases rest with
    | nil => rfl
    | cons b rest => exact List.dropWhile_cons_of_neg (by simp [(h b rfl).1])
  unfold readNat
  dsimp only
  rw [htake, hdrop, foldl_nat, if_neg]
  rintro (hnil | ⟨hzero, hlength⟩ | hnext)
  · exact Nat.toDigits_ne_nil (List.map_eq_nil_iff.mp hnil)
  · by_cases hn : n = 0
    · subst hn
      exact hlength (by decide)
    · exact nat_head_ne_zero hn hzero
  · obtain hnext | hnext | hnext := hnext
    · exact (h _ hnext).2.1 rfl
    · exact (h _ hnext).2.2.1 rfl
    · exact (h _ hnext).2.2.2 rfl

/-! ## Members and objects -/

theorem readScalar_encode (value : Scalar) {b : UInt8} (hb : Closes b) (rest : List UInt8) :
    readScalar (value.encode ++ b :: rest) = some (value, b :: rest) := by
  unfold readScalar
  cases value with
  | nat n =>
    have hhead : ((Scalar.nat n).encode ++ b :: rest).head? ≠ some (byte '"') := by
      have hne : nat n ≠ [] := fun h => Nat.toDigits_ne_nil (List.map_eq_nil_iff.mp h)
      rw [Scalar.encode, List.head?_append_of_ne_nil _ hne]
      intro hquote
      exact absurd (isDigit_of_mem_nat (List.mem_of_mem_head? hquote)) (by decide)
    have hstops : Stops (b :: rest) := stops_cons (hb.imp_right .inr) rest
    rw [if_neg hhead, Scalar.encode, readNat_nat n hstops]
    rfl
  | str s =>
    have hhead : ((Scalar.str s).encode ++ b :: rest).head? = some (byte '"') := rfl
    rw [if_pos hhead, Scalar.encode, readString_str]
    rfl

/-- No value begins with white space. -/
theorem skipSpace_encode (value : Scalar) (rest : List UInt8) :
    skipSpace (value.encode ++ rest) = value.encode ++ rest := by
  cases value with
  | nat n =>
    rw [Scalar.encode]
    cases hn : nat n with
    | nil => exact absurd (List.map_eq_nil_iff.mp hn) Nat.toDigits_ne_nil
    | cons d digits =>
      have hdigit : isDigit d = true := isDigit_of_mem_nat (hn ▸ List.mem_cons_self)
      exact skipSpace_cons (isSpace_of_isDigit hdigit) _
  | str s => exact skipSpace_cons (by decide) _

/-- A member as it stands in an object. -/
def member (m : String × Scalar) : List UInt8 := str m.1 ++ byte ':' :: m.2.encode

theorem readMember_member (m : String × Scalar) {b : UInt8} (hb : Closes b) (rest : List UInt8) :
    readMember (member m ++ b :: rest) = some (m, b :: rest) := by
  have hcolon : skipSpace (byte ':' :: (m.2.encode ++ b :: rest))
      = 58 :: (m.2.encode ++ b :: rest) := skipSpace_cons (by decide) _
  unfold member readMember
  rw [List.append_assoc, readString_str, Option.bind_some, List.cons_append]
  dsimp only
  rw [hcolon]
  show ((readScalar (skipSpace (m.2.encode ++ b :: rest))).map _) = _
  rw [skipSpace_encode, readScalar_encode m.2 hb, Option.map_some]
  dsimp only
  rw [skipSpace_cons hb.not_space]

theorem readMembers_separated {members : List (String × Scalar)} (hne : members ≠ []) {fuel : Nat}
    (hfuel : members.length ≤ fuel) (rest : List UInt8) :
    readMembers fuel (separated (members.map member) ++ 125 :: rest) = some (members, rest) := by
  induction members generalizing fuel with
  | nil => exact absurd rfl hne
  | cons m members ih =>
    cases fuel with
    | zero => exact absurd hfuel (by simp)
    | succ fuel =>
      cases members with
      | nil =>
        show readMembers (fuel + 1) (member m ++ 125 :: rest) = _
        rw [readMembers, readMember_member m (.inr rfl)]
        rfl
      | cons m' members =>
        have hstart : ∃ tail, separated ((m' :: members).map member) ++ 125 :: rest
            = byte '"' :: tail := by
          cases members <;> exact ⟨_, rfl⟩
        have hskip : skipSpace (separated ((m' :: members).map member) ++ 125 :: rest)
            = separated ((m' :: members).map member) ++ 125 :: rest := by
          obtain ⟨tail, htail⟩ := hstart
          rw [htail]
          exact skipSpace_cons (by decide) _
        have hsplit : separated ((m :: m' :: members).map member) ++ 125 :: rest
            = member m ++ 44 :: (separated ((m' :: members).map member) ++ 125 :: rest) := by
          show (member m ++ byte ',' :: separated ((m' :: members).map member)) ++ 125 :: rest = _
          rw [List.append_assoc]
          rfl
        rw [hsplit, readMembers, readMember_member m (.inl rfl), Option.bind_some]
        show (readMembers fuel (skipSpace _)).map _ = _
        rw [hskip, ih (List.cons_ne_nil _ _) (Nat.le_of_succ_le_succ hfuel)]
        rfl

/-- **A document is read back.** -/
theorem readObject_document (members : List (String × Scalar)) :
    readObject (document members) = some members := by
  have hfields : (members.map fun m => (m.1, m.2.encode)).map
      (fun f => str f.1 ++ byte ':' :: f.2) = members.map member := by
    rw [List.map_map]
    rfl
  unfold document object readObject
  rw [hfields, skipSpace_cons (by decide)]
  dsimp only
  cases members with
  | nil => rfl
  | cons m members =>
    have hlength : (m :: members).length
        ≤ (separated ((m :: members).map member) ++ [125]).length := by
      rw [List.length_append, length_separated, List.length_map, List.length_singleton]
      omega
    have hstart : ∃ tail, separated ((m :: members).map member) ++ [125] = 34 :: tail := by
      cases members <;> exact ⟨_, rfl⟩
    obtain ⟨tail, htail⟩ := hstart
    have hread := readMembers_separated (List.cons_ne_nil m members) hlength []
    rw [htail] at hread ⊢
    show ((match skipSpace (34 :: tail) with
      | 125 :: rest => some ([], rest)
      | text => readMembers text.length text).bind _) = _
    rw [skipSpace_cons (by decide)]
    show ((readMembers (34 :: tail).length (34 :: tail)).bind _) = _
    rw [hread]
    rfl

/-- **A document tells its members.** -/
theorem document_inj {members members' : List (String × Scalar)}
    (h : document members = document members') : members = members' := by
  have hread := congrArg readObject h
  rw [readObject_document, readObject_document] at hread
  exact Option.some.inj hread

end Json
