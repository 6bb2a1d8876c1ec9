import Mathlib.Data.List.Basic
import Mathlib.Data.List.Infix
import Mathlib.Data.List.TakeWhile
import Mathlib.Order.Minimal

/-!
# The update a package is of

An installed update of Windows is known by the identifier in the name of its
package, a token `KB` with six to eight digits. `kb_id_from_package_name` takes
the first two letters `KB` of the name, wherever they stand, and looks at the
digits after them. What it reports is the first token of the name only if that
is where the two letters are: letters inside a word are taken for an update
when enough digits follow them, and where they do not, they hide an update that
is named later on.
-/

namespace Lariska

/-! ## The code -/

/-- What comes after the first `KB`. -/
def afterKb : List Char → Option (List Char)
  | 'K' :: 'B' :: rest => some rest
  | _ :: rest => afterKb rest
  | [] => none

/-- The identifier with these digits. -/
def kbId (digits : List Char) : String := String.ofList ('K' :: 'B' :: digits)

/-- `kb_id_from_package_name`. -/
def kbIdFromPackageName (name : String) : Option String := do
  let upper := name.toList.map Char.toUpper
  let rest ← afterKb upper
  let digits := rest.takeWhile Char.isDigit
  if ¬ (6 ≤ digits.length ∧ digits.length ≤ 8) then none else some (kbId digits)

/-! ## Tokens -/

/-- What is a letter or a digit. Which characters are, beyond ASCII, makes no
difference. -/
structure Alphanumeric where
  holds : Char → Bool
  ascii : ∀ c, c.isAlphanum = true → holds c = true

/-- The two letters, in either case, after `front` and before `back`. -/
def KbAt (name front back : List Char) : Prop :=
  ∃ k b, name = front ++ k :: b :: back ∧ k.toUpper = 'K' ∧ b.toUpper = 'B'

/-- So many digits as identifiers have. -/
def Sized (digits : List Char) : Prop := 6 ≤ digits.length ∧ digits.length ≤ 8

instance (digits : List Char) : Decidable (Sized digits) := inferInstanceAs (Decidable (_ ∧ _))

/-- **A token** of the name, after `front` and before `back`: the letters and
the digits, with no letter or digit on either side. -/
structure KbToken (alphanumeric : Alphanumeric) (name front digits back : List Char) : Prop where
  letters : KbAt name front (digits ++ back)
  decimal : ∀ c ∈ digits, c.isDigit = true
  sized : Sized digits
  before : ∀ c ∈ front.getLast?, alphanumeric.holds c = false
  after : ∀ c ∈ back.head?, alphanumeric.holds c = false

/-- The first token of the name has these digits. -/
def FirstToken (alphanumeric : Alphanumeric) (name digits : List Char) : Prop :=
  ∃ front back, KbToken alphanumeric name front digits back ∧
    ∀ front' digits' back', KbToken alphanumeric name front' digits' back' →
      front.length ≤ front'.length

/-- **What is reported is the first token**, and nothing where there is none. -/
def ReportsFirstToken (alphanumeric : Alphanumeric) (name : String) : Prop :=
  ∀ id, kbIdFromPackageName name = some id ↔
    ∃ digits, FirstToken alphanumeric name.toList digits ∧ id = kbId digits

/-- The first `KB` of the name, with all the digits that follow it. -/
structure FirstKb (name front digits back : List Char) : Prop where
  letters : KbAt name front (digits ++ back)
  first : ∀ front' back', KbAt name front' back' → front.length ≤ front'.length
  decimal : ∀ c ∈ digits, c.isDigit = true
  whole : ∀ c ∈ back.head?, c.isDigit = false

/-- **Where the first `KB` does not lead astray**: it is a token; or it is part
of another one with enough digits after it, and the first token that comes has
the same digits; or it has not as many digits, and no token comes. -/
def NotAstray (alphanumeric : Alphanumeric) (name : List Char) : Prop :=
  ∀ front digits back, FirstKb name front digits back →
    KbToken alphanumeric name front digits back ∨
    Sized digits ∧ FirstToken alphanumeric name digits ∨
    ¬ Sized digits ∧ ∀ front' digits' back', ¬ KbToken alphanumeric name front' digits' back'

/-! ## The first two letters -/

variable {name front front' digits digits' back back' : List Char}

theorem val_toUpper {c : Char} (h : 'a'.val ≤ c.val ∧ c.val ≤ 'z'.val) :
    c.toUpper.val = c.val + ('A'.val - 'a'.val) := by
  delta Char.toUpper
  rw [dif_pos h]

theorem toUpper_of_not_lower {c : Char} (h : ¬('a'.val ≤ c.val ∧ c.val ≤ 'z'.val)) :
    c.toUpper = c :=
  dif_neg h

/-- A digit has no upper case. -/
theorem toUpper_of_isDigit {c : Char} (h : c.isDigit = true) : c.toUpper = c := by
  simp only [Char.isDigit, Bool.and_eq_true, decide_eq_true_eq] at h
  exact toUpper_of_not_lower (by grind [UInt32.le_iff_toNat_le])

theorem isDigit_toUpper (c : Char) : c.toUpper.isDigit = c.isDigit := by
  by_cases h : 'a'.val ≤ c.val ∧ c.val ≤ 'z'.val
  · simp only [Char.isDigit, val_toUpper h]
    grind [UInt32.toNat_add]
  · rw [toUpper_of_not_lower h]

theorem kbAt_nil : ¬ KbAt [] front back := by
  rintro ⟨k, b, h, -⟩
  exact List.append_ne_nil_of_right_ne_nil front (List.cons_ne_nil k _) h.symm

theorem kbAt_cons {c c' : Char} :
    KbAt (c :: name) (c' :: front) back ↔ c = c' ∧ KbAt name front back := by
  constructor
  · rintro ⟨k, b, h, hk, hb⟩
    obtain ⟨hc, hrest⟩ := List.cons.inj h
    exact ⟨hc, k, b, hrest, hk, hb⟩
  · rintro ⟨rfl, k, b, h, hk, hb⟩
    exact ⟨k, b, congrArg _ h, hk, hb⟩

theorem kbAt_here {c : Char} :
    KbAt (c :: name) [] back ↔ ∃ b, name = b :: back ∧ c.toUpper = 'K' ∧ b.toUpper = 'B' := by
  constructor
  · rintro ⟨k, b, h, hk, hb⟩
    obtain ⟨rfl, rfl⟩ := List.cons.inj h
    exact ⟨b, rfl, hk, hb⟩
  · rintro ⟨b, rfl, hk, hb⟩
    exact ⟨c, b, rfl, hk, hb⟩

/-- Where the two letters do not stand at the beginning, the search goes on. -/
theorem afterKb_next {c : Char} (h : ∀ back, ¬ KbAt (c :: name) [] back) :
    afterKb ((c :: name).map Char.toUpper) = afterKb (name.map Char.toUpper) := by
  cases name with
  | nil =>
    show afterKb [c.toUpper] = afterKb []
    simp [afterKb]
  | cons b back =>
    have hletters : ¬ (c.toUpper = 'K' ∧ b.toUpper = 'B') := fun ⟨hk, hb⟩ =>
      h back (kbAt_here.mpr ⟨b, rfl, hk, hb⟩)
    show afterKb (c.toUpper :: b.toUpper :: back.map Char.toUpper)
      = afterKb (b.toUpper :: back.map Char.toUpper)
    rw [afterKb]
    intro rest hc hrest
    exact hletters ⟨hc, (List.cons.inj hrest).1⟩

/-- The search ends at the first of them. -/
theorem afterKb_of_first (h : KbAt name front back)
    (hfirst : ∀ front' back', KbAt name front' back' → front.length ≤ front'.length) :
    afterKb (name.map Char.toUpper) = some (back.map Char.toUpper) := by
  induction name generalizing front with
  | nil => exact absurd h kbAt_nil
  | cons c name ih =>
    cases front with
    | nil =>
      obtain ⟨b, rfl, hk, hb⟩ := kbAt_here.mp h
      show afterKb (c.toUpper :: b.toUpper :: back.map Char.toUpper) = _
      rw [hk, hb]
      rfl
    | cons c' front =>
      rw [afterKb_next fun back' hhere => absurd (hfirst [] back' hhere) (Nat.not_succ_le_zero _)]
      refine ih (kbAt_cons.mp h).2 fun front' back' h' => ?_
      exact Nat.le_of_succ_le_succ (hfirst (c :: front') back' (kbAt_cons.mpr ⟨rfl, h'⟩))

theorem afterKb_of_none (h : ∀ front back, ¬ KbAt name front back) :
    afterKb (name.map Char.toUpper) = none := by
  induction name with
  | nil => rfl
  | cons c name ih =>
    rw [afterKb_next (h [])]
    exact ih fun front back h' => h (c :: front) back (kbAt_cons.mpr ⟨rfl, h'⟩)

/-! ## The digits -/

/-- The digits of a text that begins with so many and no more. -/
theorem takeWhile_digits (hdigits : ∀ c ∈ digits, c.isDigit = true)
    (hback : ∀ c ∈ back.head?, c.isDigit = false) :
    (digits ++ back).takeWhile Char.isDigit = digits := by
  rw [List.takeWhile_append_of_pos hdigits]
  cases back with
  | nil => exact List.append_nil digits
  | cons c back => rw [List.takeWhile_cons_of_neg (by simp [hback c rfl]), List.append_nil]

/-- The digits are the same in upper case. -/
theorem takeWhile_toUpper (text : List Char) :
    (text.map Char.toUpper).takeWhile Char.isDigit = text.takeWhile Char.isDigit := by
  rw [List.takeWhile_map, show Char.isDigit ∘ Char.toUpper = Char.isDigit from funext isDigit_toUpper]
  refine (List.map_congr_left fun c hc => ?_).trans (List.map_id _)
  exact toUpper_of_isDigit (List.mem_takeWhile_imp hc)

/-- **What the code reports** is made of the digits after the first `KB`. -/
theorem kbIdFromPackageName_of_first {name : String} (h : FirstKb name.toList front digits back)
    (id : String) : kbIdFromPackageName name = some id ↔ Sized digits ∧ kbId digits = id := by
  have hrest : ((digits ++ back).map Char.toUpper).takeWhile Char.isDigit = digits :=
    (takeWhile_toUpper _).trans (takeWhile_digits h.decimal h.whole)
  unfold kbIdFromPackageName
  dsimp only
  rw [afterKb_of_first h.letters h.first]
  show (if ¬ Sized (((digits ++ back).map Char.toUpper).takeWhile Char.isDigit) then none
    else some (kbId (((digits ++ back).map Char.toUpper).takeWhile Char.isDigit))) = some id ↔ _
  rw [hrest]
  by_cases hsized : Sized digits
  · rw [if_neg (not_not_intro hsized)]
    exact ⟨fun heq => ⟨hsized, Option.some.inj heq⟩, fun heq => congrArg some heq.2⟩
  · rw [if_pos hsized]
    exact ⟨fun heq => (by cases heq), fun heq => absurd heq.1 hsized⟩

theorem kbIdFromPackageName_of_none {name : String} (h : ∀ front back, ¬ KbAt name.toList front back)
    (id : String) : kbIdFromPackageName name ≠ some id := by
  unfold kbIdFromPackageName
  dsimp only
  rw [afterKb_of_none h]
  exact fun heq => (by cases heq)

/-- The first of the places there are. -/
theorem exists_first {P : List Char → Prop} (h : ∃ front, P front) :
    ∃ front, P front ∧ ∀ front', P front' → front.length ≤ front'.length := by
  obtain ⟨front, hfront, hmin⟩ := exists_minimalFor_of_wellFoundedLT P List.length h
  exact ⟨front, hfront, fun front' h' => (le_total _ _).elim id (hmin h')⟩

theorem exists_firstKb (h : KbAt name front back) :
    ∃ front digits back, FirstKb name front digits back := by
  obtain ⟨front, ⟨rest, hat⟩, hfirst⟩ := exists_first (P := fun front => ∃ back, KbAt name front back)
    ⟨front, back, h⟩
  refine ⟨front, rest.takeWhile Char.isDigit, rest.dropWhile Char.isDigit, ?_,
    fun front' back' h' => hfirst front' ⟨back', h'⟩, fun c hc => List.mem_takeWhile_imp hc, ?_⟩
  · rw [List.takeWhile_append_dropWhile]
    exact hat
  · intro c hc
    have hnot := List.head?_dropWhile_not Char.isDigit rest
    rw [Option.mem_def.mp hc] at hnot
    exact hnot

/-! ## Tokens -/

variable {alphanumeric : Alphanumeric}

/-- A token has all the digits there are. -/
theorem KbToken.whole (h : KbToken alphanumeric name front digits back) :
    ∀ c ∈ back.head?, c.isDigit = false := by
  intro c hc
  by_contra hnot
  have hdigit : c.isDigit = true := Bool.of_not_eq_false hnot
  have hascii : alphanumeric.holds c = true := alphanumeric.ascii c (by
    unfold Char.isAlphanum
    rw [hdigit, Bool.or_true])
  rw [h.after c hc] at hascii
  cases hascii

/-- Where the two letters stand, there is one run of digits. -/
theorem digits_unique (h : KbAt name front (digits ++ back))
    (hdigits : ∀ c ∈ digits, c.isDigit = true) (hback : ∀ c ∈ back.head?, c.isDigit = false)
    (h' : KbAt name front' (digits' ++ back')) (hdigits' : ∀ c ∈ digits', c.isDigit = true)
    (hback' : ∀ c ∈ back'.head?, c.isDigit = false) (hlen : front.length = front'.length) :
    front = front' ∧ digits = digits' ∧ back = back' := by
  obtain ⟨k, b, hname, -⟩ := h
  obtain ⟨k', b', hname', -⟩ := h'
  obtain ⟨hfront, hrest⟩ := List.append_inj (hname.symm.trans hname') hlen
  have htail : digits ++ back = digits' ++ back' :=
    (List.cons.inj (List.cons.inj hrest).2).2
  have heq : digits = digits' := by
    rw [← takeWhile_digits hdigits hback, htail, takeWhile_digits hdigits' hback']
  exact ⟨hfront, heq, List.append_cancel_left (heq ▸ htail)⟩

theorem FirstToken.unique (h : FirstToken alphanumeric name digits)
    (h' : FirstToken alphanumeric name digits') : digits = digits' := by
  obtain ⟨front, back, htoken, hfirst⟩ := h
  obtain ⟨front', back', htoken', hfirst'⟩ := h'
  exact (digits_unique htoken.letters htoken.decimal htoken.whole htoken'.letters htoken'.decimal
    htoken'.whole (le_antisymm (hfirst _ _ _ htoken') (hfirst' _ _ _ htoken))).2.1

/-- Where there is a token, there is a first one. -/
theorem KbToken.exists_first (h : KbToken alphanumeric name front digits back) :
    ∃ digits, FirstToken alphanumeric name digits := by
  obtain ⟨front, ⟨digits, back, htoken⟩, hfirst⟩ := Lariska.exists_first
    (P := fun front => ∃ digits back, KbToken alphanumeric name front digits back)
    ⟨front, digits, back, h⟩
  exact ⟨digits, front, back, htoken, fun front' digits' back' h' => hfirst front' ⟨_, _, h'⟩⟩

theorem kbId_injective : Function.Injective kbId := fun _ _ h =>
  (List.cons.inj (List.cons.inj (String.ofList_injective h)).2).2

/-- With the digits of the first `KB`, the report is right if the first token
has just these. -/
theorem FirstKb.reports_iff {name : String} (h : FirstKb name.toList front digits back)
    (hsized : Sized digits) :
    ReportsFirstToken alphanumeric name ↔ FirstToken alphanumeric name.toList digits := by
  unfold ReportsFirstToken
  simp only [kbIdFromPackageName_of_first h]
  constructor
  · intro hreports
    obtain ⟨digits', htoken, heq⟩ := (hreports (kbId digits)).mp ⟨hsized, rfl⟩
    exact kbId_injective heq ▸ htoken
  · intro htoken id
    constructor
    · rintro ⟨-, rfl⟩
      exact ⟨digits, htoken, rfl⟩
    · rintro ⟨digits', htoken', rfl⟩
      exact ⟨hsized, congrArg kbId (htoken.unique htoken')⟩

/-- Without them, it is right if there is no token. -/
theorem FirstKb.silent_iff {name : String} (h : FirstKb name.toList front digits back)
    (hsized : ¬ Sized digits) :
    ReportsFirstToken alphanumeric name ↔
      ∀ front' digits' back', ¬ KbToken alphanumeric name.toList front' digits' back' := by
  unfold ReportsFirstToken
  simp only [kbIdFromPackageName_of_first h]
  constructor
  · intro hreports front' digits' back' htoken
    obtain ⟨first, hfirst⟩ := htoken.exists_first
    exact hsized ((hreports (kbId first)).mpr ⟨first, hfirst, rfl⟩).1
  · intro hnone id
    constructor
    · exact fun hreported => absurd hreported.1 hsized
    · rintro ⟨first, ⟨front', back', htoken, -⟩, -⟩
      exact absurd htoken (hnone front' first back')

/-- **The code reports the first token exactly where the first `KB` does not
lead it astray.** -/
theorem reportsFirstToken_iff (alphanumeric : Alphanumeric) (name : String) :
    ReportsFirstToken alphanumeric name ↔ NotAstray alphanumeric name.toList := by
  by_cases hkb : ∃ front back, KbAt name.toList front back
  · obtain ⟨front, back, hat⟩ := hkb
    obtain ⟨front, digits, back, hfirst⟩ := exists_firstKb hat
    have hnotAstray : NotAstray alphanumeric name.toList ↔
        KbToken alphanumeric name.toList front digits back ∨
        Sized digits ∧ FirstToken alphanumeric name.toList digits ∨
        ¬ Sized digits ∧
          ∀ front' digits' back', ¬ KbToken alphanumeric name.toList front' digits' back' := by
      refine ⟨fun h => h front digits back hfirst, fun h front' digits' back' hfirst' => ?_⟩
      obtain ⟨rfl, rfl, rfl⟩ := digits_unique hfirst.letters hfirst.decimal hfirst.whole
        hfirst'.letters hfirst'.decimal hfirst'.whole
        (le_antisymm (hfirst.first _ _ hfirst'.letters) (hfirst'.first _ _ hfirst.letters))
      exact h
    rw [hnotAstray]
    by_cases hsized : Sized digits
    · rw [hfirst.reports_iff hsized]
      constructor
      · exact fun h => .inr (.inl ⟨hsized, h⟩)
      · rintro (htoken | ⟨-, h⟩ | ⟨hunsized, -⟩)
        · exact ⟨front, back, htoken, fun front' _ _ h' => hfirst.first front' _ h'.letters⟩
        · exact h
        · exact absurd hsized hunsized
    · rw [hfirst.silent_iff hsized]
      constructor
      · exact fun h => .inr (.inr ⟨hsized, h⟩)
      · rintro (htoken | ⟨h, -⟩ | ⟨-, h⟩)
        · exact absurd htoken.sized hsized
        · exact absurd h hsized
        · exact h
  · have hnone : ∀ front back, ¬ KbAt name.toList front back := fun front back h =>
      hkb ⟨front, back, h⟩
    constructor
    · exact fun _ front digits back hfirst => absurd hfirst.letters (hnone front _)
    · refine fun _ id => ⟨fun h => absurd h (kbIdFromPackageName_of_none hnone id), ?_⟩
      rintro ⟨digits, ⟨front, back, htoken, -⟩, -⟩
      exact absurd htoken.letters (hnone front _)

namespace Sample

/-- The letters and digits of ASCII. -/
def asciiAlphanumeric : Alphanumeric := ⟨Char.isAlphanum, fun _ h => h⟩

/-- A package of an update, whose name has the two letters in a word before. -/
def webKbPackage : String := "Package_for_WebKBase_KB5034123~amd64"

/-- A package of no update, whose name has them at the end of a word. -/
def mskbPackage : String := "MSKB123456"

theorem webKbPackage_hidden : ¬ ReportsFirstToken asciiAlphanumeric webKbPackage := by
  intro hreports
  have htoken : KbToken asciiAlphanumeric webKbPackage.toList "Package_for_WebKBase_".toList
      "5034123".toList "~amd64".toList := {
    letters := ⟨'K', 'B', by decide, by decide, by decide⟩
    decimal := List.all_eq_true.mp rfl
    sized := by decide
    before := fun c (h : some '_' = some c) => Option.some.inj h ▸ rfl
    after := fun c (h : some '~' = some c) => Option.some.inj h ▸ rfl }
  obtain ⟨digits, hfirst⟩ := htoken.exists_first
  have hreported := (hreports (kbId digits)).mpr ⟨digits, hfirst, rfl⟩
  have hnone : kbIdFromPackageName webKbPackage = none := by decide
  rw [hnone] at hreported
  cases hreported

theorem mskbPackage_fictitious : ¬ ReportsFirstToken asciiAlphanumeric mskbPackage := by
  intro hreports
  obtain ⟨digits, ⟨front, back, htoken, -⟩, heq⟩ :=
    (hreports "KB123456").mp (by decide)
  have hdigits : digits = "123456".toList := kbId_injective (heq.symm.trans (by decide))
  obtain ⟨k, b, hname, hk, -⟩ := htoken.letters
  -- There is room for the token in no other place than after `MS`.
  have hlen : front.length + back.length = 2 := by
    have hlength := congrArg List.length hname
    rw [List.length_append, List.length_cons, List.length_cons, List.length_append, hdigits]
      at hlength
    have hten : mskbPackage.toList.length = 10 := by decide
    have hsix : "123456".toList.length = 6 := by decide
    omega
  have hsplit : mskbPackage.toList = 'M' :: 'S' :: 'K' :: "B123456".toList := by decide
  rw [hsplit] at hname
  rcases front with _ | ⟨m, _ | ⟨s, _ | ⟨_, front⟩⟩⟩
  · cases (List.cons.inj hname).1
    revert hk
    decide
  · cases (List.cons.inj (List.cons.inj hname).2).1
    revert hk
    decide
  · cases (List.cons.inj hname).1
    cases (List.cons.inj (List.cons.inj hname).2).1
    have hletter := htoken.before 'S' rfl
    revert hletter
    decide
  · rw [List.length_cons, List.length_cons, List.length_cons] at hlen
    omega

/-- **An update that is not reported, and one that is not there**: the letters
of a word hide the one and make up the other. -/
theorem letters_lead_astray : ¬ ReportsFirstToken asciiAlphanumeric webKbPackage ∧
    kbIdFromPackageName mskbPackage = some "KB123456" ∧
    ¬ ReportsFirstToken asciiAlphanumeric mskbPackage :=
  ⟨webKbPackage_hidden, by decide, mskbPackage_fictitious⟩

end Sample

end Lariska
