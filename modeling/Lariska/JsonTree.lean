import Lariska.JsonObject

/-!
# Reading nested documents

The reader of `JsonObject` for values of any shape that the agent's documents
have: `null`, unsigned integers, strings, and arrays and objects of values,
down to some depth. `Reads` says that a text is read as a value wherever it
stands, with one rule for each kind of text `Json` writes, so that what a
document is read as follows the way it is written.
-/

namespace Json

inductive Value where
  | null
  | nat (n : Nat)
  | str (s : String)
  | array (items : List Value)
  | object (members : List (String × Value))

/-! ## The reader -/

section Reader

variable {α : Type} (read : List UInt8 → Option (α × List UInt8)) (close : UInt8)

/-- Items up to the closing byte, and what follows that. -/
def readItems : Nat → List UInt8 → Option (List α × List UInt8)
  | 0, _ => none
  | fuel + 1, text => (read text).bind fun (item, rest) =>
    match skipSpace rest with
    | [] => none
    | b :: rest =>
      if b = close then some ([item], rest)
      else if b = 44 then (readItems fuel (skipSpace rest)).map fun (items, rest) =>
        (item :: items, rest)
      else none

/-- ... of which there may be none. -/
def readList (text : List UInt8) : Option (List α × List UInt8) :=
  match skipSpace text with
  | [] => none
  | b :: rest =>
    if b = close then some ([], rest) else readItems read close (b :: rest).length (b :: rest)

/-- A key, a colon and a value. -/
def readKeyed (text : List UInt8) : Option ((String × α) × List UInt8) :=
  (readString text).bind fun (key, rest) =>
    match skipSpace rest with
    | 58 :: rest => (read (skipSpace rest)).map fun (value, rest) => ((key, value), rest)
    | _ => none

end Reader

/-- A value, with so many levels below it at most. -/
def readValue : Nat → List UInt8 → Option (Value × List UInt8)
  | 0, _ => none
  | depth + 1, text =>
    match text with
    | 110 :: 117 :: 108 :: 108 :: rest => some (.null, rest)
    | 34 :: rest => (readString (34 :: rest)).map fun (s, rest) => (.str s, rest)
    | 91 :: rest => (readList (readValue depth) 93 rest).map fun (items, rest) =>
        (.array items, rest)
    | 123 :: rest => (readList (readKeyed (readValue depth)) 125 rest).map fun (members, rest) =>
        (.object members, rest)
    | text => (readNat text).map fun (n, rest) => (.nat n, rest)

/-- The levels a document may have. -/
def maxDepth : Nat := 127

def readDocument (text : List UInt8) : Option Value :=
  (readValue maxDepth (skipSpace text)).bind fun (value, rest) =>
    if skipSpace rest = [] then some value else none

/-! ## Lists of items -/

section Items

variable {α : Type} {read : List UInt8 → Option (α × List UInt8)} {close : UInt8}
variable {text : List UInt8} {texts : List (List UInt8)} {x : α} {items : List α}

/-- The text of an item: it begins it, and it is read as the item where the next
one or the end follows. -/
structure ItemOf (read : List UInt8 → Option (α × List UInt8)) (close : UInt8)
    (text : List UInt8) (x : α) : Prop where
  begins : ∃ b tail, text = b :: tail ∧ isSpace b = false ∧ b ≠ close
  reads : ∀ b rest, b = 44 ∨ b = close → read (text ++ b :: rest) = some (x, b :: rest)

theorem ItemOf.skipSpace (h : ItemOf read close text x) (rest : List UInt8) :
    Json.skipSpace (text ++ rest) = text ++ rest := by
  obtain ⟨b, tail, rfl, hspace, -⟩ := h.begins
  exact skipSpace_cons hspace _

/-- **Items separated by commas are read**, each once. -/
theorem readItems_separated (hclose : isSpace close = false) (hcomma : close ≠ 44)
    (h : List.Forall₂ (ItemOf read close) texts items) (hne : texts ≠ []) {fuel : Nat}
    (hfuel : texts.length ≤ fuel) (rest : List UInt8) :
    readItems read close fuel (separated texts ++ close :: rest) = some (items, rest) := by
  induction h generalizing fuel with
  | nil => exact absurd rfl hne
  | @cons text x texts items hx hs ih =>
    cases fuel with
    | zero => exact absurd hfuel (by simp)
    | succ fuel =>
      cases hs with
      | nil =>
        show readItems read close (fuel + 1) (text ++ close :: rest) = _
        rw [readItems, hx.reads close rest (.inr rfl), Option.bind_some]
        dsimp only
        rw [skipSpace_cons hclose]
        exact if_pos rfl
      | @cons text' x' texts items hx' hs =>
        have hsplit : separated (text :: text' :: texts) ++ close :: rest
            = text ++ 44 :: (separated (text' :: texts) ++ close :: rest) := by
          show (text ++ byte ',' :: separated (text' :: texts)) ++ close :: rest = _
          rw [List.append_assoc]
          rfl
        have hnext : Json.skipSpace (separated (text' :: texts) ++ close :: rest)
            = separated (text' :: texts) ++ close :: rest := by
          cases texts with
          | nil => exact hx'.skipSpace _
          | cons text'' texts =>
            have hassoc : separated (text' :: text'' :: texts) ++ close :: rest
                = text' ++ (byte ',' :: separated (text'' :: texts) ++ close :: rest) :=
              List.append_assoc _ _ _
            rw [hassoc]
            exact hx'.skipSpace _
        rw [hsplit, readItems, hx.reads 44 _ (.inl rfl), Option.bind_some]
        dsimp only
        rw [skipSpace_cons (by decide)]
        dsimp only
        rw [if_neg hcomma.symm, if_pos rfl, hnext,
          ih (List.cons_ne_nil _ _) (Nat.le_of_succ_le_succ hfuel)]
        rfl

/-- **A list is read**, empty or not. -/
theorem readList_separated (hclose : isSpace close = false) (hcomma : close ≠ 44)
    (h : List.Forall₂ (ItemOf read close) texts items) (rest : List UInt8) :
    readList read close (separated texts ++ close :: rest) = some (items, rest) := by
  unfold readList
  cases h with
  | nil =>
    show (match Json.skipSpace (close :: rest) with | [] => none | b :: rest => _) = _
    rw [skipSpace_cons hclose]
    exact if_pos rfl
  | @cons text x texts items hx hs =>
    obtain ⟨b, tail, htail, hspace, hne⟩ : ∃ b tail, separated (text :: texts) ++ close :: rest
        = b :: tail ∧ isSpace b = false ∧ b ≠ close := by
      obtain ⟨b, tail, rfl, hspace, hne⟩ := hx.begins
      cases texts <;> exact ⟨b, _, rfl, hspace, hne⟩
    have hread := readItems_separated hclose hcomma (.cons hx hs) (List.cons_ne_nil _ _)
      (show (text :: texts).length ≤ (separated (text :: texts) ++ close :: rest).length by
        rw [List.length_append, length_separated, List.length_cons, List.length_cons]
        omega) rest
    rw [htail] at hread ⊢
    rw [skipSpace_cons hspace]
    dsimp only
    rw [if_neg hne]
    exact hread

end Items

/-! ## What a text is read as -/

/-- **A text is read as a value** with so many levels, wherever it stands. -/
structure Reads (depth : Nat) (text : List UInt8) (value : Value) : Prop where
  begins : ∃ b tail, text = b :: tail ∧ isSpace b = false ∧ b ≠ 93
  reads : ∀ rest, Stops rest → readValue depth (text ++ rest) = some (value, rest)

namespace Reads

variable {depth : Nat} {text : List UInt8} {value : Value}

theorem null : Reads (depth + 1) (bytes "null") .null where
  begins := ⟨110, [117, 108, 108], rfl, by decide, by decide⟩
  reads _ _ := rfl

theorem str (s : String) : Reads (depth + 1) (Json.str s) (.str s) where
  begins := ⟨34, _, rfl, by decide, by decide⟩
  reads rest _ := by
    show (readString (Json.str s ++ rest)).map _ = _
    rw [readString_str]
    rfl

theorem nat (n : Nat) : Reads (depth + 1) (Json.nat n) (.nat n) := by
  obtain ⟨d, digits, hn⟩ : ∃ d digits, Json.nat n = d :: digits :=
    List.exists_cons_of_ne_nil fun h => Nat.toDigits_ne_nil (List.map_eq_nil_iff.mp h)
  have hdigit : isDigit d = true := isDigit_of_mem_nat (hn ▸ List.mem_cons_self)
  have hhead : ∀ b, isDigit b = false → d ≠ b := fun b hb heq => by
    rw [heq, hb] at hdigit
    cases hdigit
  refine ⟨⟨d, digits, hn, isSpace_of_isDigit hdigit, hhead 93 (by decide)⟩, fun rest hstops => ?_⟩
  have hread := readNat_nat n hstops
  rw [hn] at hread ⊢
  show readValue (depth + 1) (d :: (digits ++ rest)) = _
  unfold readValue
  split
  · next h => exact absurd (List.cons.inj h).1 (hhead 110 (by decide))
  · next h => exact absurd (List.cons.inj h).1 (hhead 34 (by decide))
  · next h => exact absurd (List.cons.inj h).1 (hhead 91 (by decide))
  · next h => exact absurd (List.cons.inj h).1 (hhead 123 (by decide))
  · show (readNat (d :: digits ++ rest)).map _ = _
    rw [hread]
    rfl

theorem opt {α : Type} {enc : α → List UInt8} {val : α → Value} (o : Option α)
    (h : ∀ a ∈ o, Reads (depth + 1) (enc a) (val a)) :
    Reads (depth + 1) (Json.opt enc o) (o.elim .null val) := by
  cases o with
  | none => exact null
  | some a => exact h a rfl

/-- **An array is read** as the values of its items. -/
theorem array {texts : List (List UInt8)} {values : List Value}
    (h : List.Forall₂ (Reads depth) texts values) :
    Reads (depth + 1) (Json.array texts) (.array values) := by
  refine ⟨⟨91, _, rfl, by decide, by decide⟩, fun rest _ => ?_⟩
  have hitems : List.Forall₂ (ItemOf (readValue depth) 93) texts values :=
    h.imp fun text value hread => ⟨hread.begins, fun b rest hb =>
      hread.reads _ (stops_cons (hb.imp_right .inl) rest)⟩
  have hlist := readList_separated (by decide) (by decide) hitems rest
  show readValue (depth + 1) (91 :: (separated texts ++ [93] ++ rest)) = _
  rw [List.append_assoc]
  show (readList (readValue depth) 93 (separated texts ++ 93 :: rest)).map _ = _
  rw [hlist]
  rfl

/-- The members of an object, by name. -/
def Member (depth : Nat) (field : String × List UInt8) (member : String × Value) : Prop :=
  field.1 = member.1 ∧ Reads depth field.2 member.2

/-- **An object is read** as its members, in their order. -/
theorem object {fields : List (String × List UInt8)} {members : List (String × Value)}
    (h : List.Forall₂ (Member depth) fields members) :
    Reads (depth + 1) (Json.object fields) (.object members) := by
  refine ⟨⟨123, _, rfl, by decide, by decide⟩, fun rest _ => ?_⟩
  have hitems : List.Forall₂ (ItemOf (readKeyed (readValue depth)) 125)
      (fields.map fun f => Json.str f.1 ++ byte ':' :: f.2) members := by
    rw [List.forall₂_map_left_iff]
    refine h.imp fun field member hmember => ?_
    obtain ⟨hkey, hread⟩ := hmember
    obtain ⟨b, tail, htext, hspace, -⟩ := hread.begins
    refine ⟨⟨34, ((bytes field.1).flatMap escape ++ [byte '"']) ++ byte ':' :: field.2, rfl,
      by decide, by decide⟩, fun c rest hc => ?_⟩
    have hstops : Stops (c :: rest) := stops_cons (hc.imp_right .inr) rest
    have hvalue : skipSpace (field.2 ++ c :: rest) = field.2 ++ c :: rest := by
      rw [htext]
      exact skipSpace_cons hspace _
    have hcolon : skipSpace (byte ':' :: (field.2 ++ c :: rest)) = 58 :: (field.2 ++ c :: rest) :=
      skipSpace_cons (by decide) _
    unfold readKeyed
    rw [List.append_assoc, readString_str, Option.bind_some, List.cons_append]
    dsimp only
    rw [hcolon]
    show (readValue depth (skipSpace (field.2 ++ c :: rest))).map _ = _
    rw [hvalue, hread.reads _ hstops, hkey]
    rfl
  have hlist := readList_separated (by decide) (by decide) hitems rest
  show readValue (depth + 1) (123 :: (separated _ ++ [125] ++ rest)) = _
  rw [List.append_assoc]
  show (readList (readKeyed (readValue depth)) 125 (separated _ ++ 125 :: rest)).map _ = _
  rw [hlist]
  rfl

/-- A text that is read as a value is a document of it. -/
theorem document (h : Reads maxDepth text value) : readDocument text = some value := by
  have hskip : skipSpace text = text := by
    obtain ⟨b, tail, rfl, hspace, -⟩ := h.begins
    exact skipSpace_cons hspace _
  have hread := h.reads [] stops_nil
  rw [List.append_nil] at hread
  unfold readDocument
  rw [hskip, hread]
  rfl

end Reads

end Json
