import Lariska.JsonTree

/-!
# Records with flags

The values of `JsonTree` have no truth values. A record is an object whose
members are values, truth values or records again, with its lists of values
inside; it is read by the readers of lists and of keys, over another reader of
members. `IsTree` says what a text is read as, with one rule for each kind of
member.
-/

namespace Json

/-- A truth value. -/
def flag (b : Bool) : List UInt8 := bytes (if b then "true" else "false")

/-- A member of a record. -/
inductive Tree where
  | flag (b : Bool)
  | value (v : Value)
  | record (members : List (String × Tree))

/-- A member, with so many levels below it at most. -/
def readTree : Nat → List UInt8 → Option (Tree × List UInt8)
  | 0, _ => none
  | depth + 1, text =>
    match text with
    | 116 :: 114 :: 117 :: 101 :: rest => some (.flag true, rest)
    | 102 :: 97 :: 108 :: 115 :: 101 :: rest => some (.flag false, rest)
    | 123 :: rest => (readList (readKeyed (readTree depth)) 125 rest).map fun (members, rest) =>
        (.record members, rest)
    | text => (readValue (depth + 1) text).map fun (v, rest) => (.value v, rest)

/-- A document that is a record. -/
def readRecord (text : List UInt8) : Option Tree :=
  (readTree maxDepth (skipSpace text)).bind fun (tree, rest) =>
    if skipSpace rest = [] then some tree else none

/-! ## What a text is read as -/

/-- **A text is read as a member** with so many levels, wherever it stands. -/
structure IsTree (depth : Nat) (text : List UInt8) (tree : Tree) : Prop where
  begins : ∃ b tail, text = b :: tail ∧ isSpace b = false
  reads : ∀ rest, Stops rest → readTree depth (text ++ rest) = some (tree, rest)

/-- The text of a value that is neither a truth value nor an object. -/
def Plain (text : List UInt8) : Prop :=
  ∀ b ∈ text.head?, b ≠ 116 ∧ b ≠ 102 ∧ b ≠ 123

/-- A member as it stands in a record. -/
theorem itemOf_keyed {α : Type} {read : List UInt8 → Option (α × List UInt8)} {key : String}
    {text : List UInt8} {x : α} (hbegins : ∃ b tail, text = b :: tail ∧ isSpace b = false)
    (hreads : ∀ rest, Stops rest → read (text ++ rest) = some (x, rest)) :
    ItemOf (readKeyed read) 125 (str key ++ byte ':' :: text) (key, x) := by
  refine ⟨⟨34, ((bytes key).flatMap escape ++ [byte '"']) ++ byte ':' :: text, rfl,
    by decide, by decide⟩, fun c rest hc => ?_⟩
  have hvalue : skipSpace (text ++ c :: rest) = text ++ c :: rest := by
    obtain ⟨b, tail, htext, hspace⟩ := hbegins
    rw [htext]
    exact skipSpace_cons hspace _
  have hcolon : skipSpace (byte ':' :: (text ++ c :: rest)) = 58 :: (text ++ c :: rest) :=
    skipSpace_cons (by decide) _
  unfold readKeyed
  rw [List.append_assoc, readString_str, Option.bind_some, List.cons_append]
  dsimp only
  rw [hcolon]
  show (read (skipSpace (text ++ c :: rest))).map _ = _
  rw [hvalue, hreads _ (stops_cons (hc.imp_right .inr) rest)]
  rfl

namespace IsTree

variable {depth : Nat} {text : List UInt8} {tree : Tree}

theorem flag (b : Bool) : IsTree (depth + 1) (Json.flag b) (.flag b) := by
  cases b with
  | true => exact ⟨⟨116, [114, 117, 101], rfl, by decide⟩, fun _ _ => rfl⟩
  | false => exact ⟨⟨102, [97, 108, 115, 101], rfl, by decide⟩, fun _ _ => rfl⟩

/-- **A value is read** as it is where there are no records. -/
theorem value {v : Value} (h : Reads (depth + 1) text v) (hplain : Plain text) :
    IsTree (depth + 1) text (.value v) := by
  obtain ⟨b, tail, htext, hspace, -⟩ := h.begins
  refine ⟨⟨b, tail, htext, hspace⟩, fun rest hstops => ?_⟩
  obtain ⟨htrue, hfalse, hobject⟩ := hplain b (by rw [htext]; rfl)
  have hread := h.reads rest hstops
  rw [htext, List.cons_append] at hread ⊢
  unfold readTree
  split
  · next heq => exact absurd (List.cons.inj heq).1 htrue
  · next heq => exact absurd (List.cons.inj heq).1 hfalse
  · next heq => exact absurd (List.cons.inj heq).1 hobject
  · rw [hread]
    rfl

theorem str (s : String) : IsTree (depth + 1) (Json.str s) (.value (.str s)) := by
  refine .value (.str s) fun b hb => ?_
  obtain rfl : (34 : UInt8) = b := Option.some_inj.mp hb
  decide

theorem nat (n : Nat) : IsTree (depth + 1) (Json.nat n) (.value (.nat n)) := by
  refine .value (.nat n) fun b hb => ?_
  have hdigit : isDigit b = true := isDigit_of_mem_nat (List.mem_of_mem_head? hb)
  refine ⟨?_, ?_, ?_⟩ <;> rintro rfl <;> exact absurd hdigit (by decide)

theorem array {items : List (List UInt8)} {v : Value}
    (h : Reads (depth + 1) (Json.array items) v) :
    IsTree (depth + 1) (Json.array items) (.value v) := by
  refine .value h fun b hb => ?_
  obtain rfl : (91 : UInt8) = b := Option.some_inj.mp hb
  decide

/-- The members of a record, by name. -/
def Member (depth : Nat) (field : String × List UInt8) (member : String × Tree) : Prop :=
  field.1 = member.1 ∧ IsTree depth field.2 member.2

/-- **A record is read** as its members, in their order. -/
theorem record {fields : List (String × List UInt8)} {members : List (String × Tree)}
    (h : List.Forall₂ (Member depth) fields members) :
    IsTree (depth + 1) (object fields) (.record members) := by
  refine ⟨⟨123, _, rfl, by decide⟩, fun rest _ => ?_⟩
  have hitems : List.Forall₂ (ItemOf (readKeyed (readTree depth)) 125)
      (fields.map fun f => Json.str f.1 ++ byte ':' :: f.2) members := by
    rw [List.forall₂_map_left_iff]
    refine h.imp fun field member hmember => ?_
    rw [hmember.1]
    exact itemOf_keyed hmember.2.begins hmember.2.reads
  have hlist := readList_separated (by decide) (by decide) hitems rest
  show readTree (depth + 1) (123 :: (separated _ ++ [125] ++ rest)) = _
  rw [List.append_assoc]
  show (readList (readKeyed (readTree depth)) 125 (separated _ ++ 125 :: rest)).map _ = _
  rw [hlist]
  rfl

/-- A text that is read as a record is a document of it. -/
theorem document (h : IsTree maxDepth text tree) : readRecord text = some tree := by
  have hskip : skipSpace text = text := by
    obtain ⟨b, tail, rfl, hspace⟩ := h.begins
    exact skipSpace_cons hspace _
  have hread := h.reads [] stops_nil
  rw [List.append_nil] at hread
  unfold readRecord
  rw [hskip, hread]
  rfl

end IsTree

end Json
