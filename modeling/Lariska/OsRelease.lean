import Lariska.RuntimeMetadata

/-!
# The name of a Linux distribution

A distribution says what it is in `/etc/os-release`, a list of assignments that
a shell could read. `parse_linux_os_release` reads the values as they are
written, with or without quotes, and the first assignment of a key counts. The
name it reports is that of the first key which is there, whether its value is
blank or not: a blank value stands for none, and the keys after it are not
looked at.
-/

namespace Lariska

/-! ## The code -/

structure OsRelease where
  name : Option String
  version : Option String
deriving DecidableEq

/-- The characters that are left when those after a backslash are taken as they
are. -/
def unescape : List Char → List Char
  | '\\' :: c :: rest => c :: unescape rest
  | c :: rest => c :: unescape rest
  | [] => []

/-- The text is of two bytes at least, of which the first and the last are this
quote. -/
def isQuoted (quote : Char) (value : List Char) : Bool :=
  2 ≤ utf8Length value && value.head? = some quote && value.getLast? = some quote

/-- `decode_os_release_value`. -/
def decodeOsReleaseValue (raw : List Char) : String :=
  let value := trim (String.ofList raw)
  if isQuoted '"' value then String.ofList (unescape value.tail.dropLast)
  else if isQuoted '\'' value then String.ofList value.tail.dropLast
  else String.ofList (unescape value)

/-- `non_blank`. -/
def nonBlank (value : String) : Option String :=
  if trim value ≠ [] then some (String.ofList (trim value)) else none

/-- One line of the loop, with the values read so far. -/
def readOsReleaseLine (values : List (String × String)) (rawLine : List Char) :
    List (String × String) :=
  let line := trim (String.ofList rawLine)
  if line = [] ∨ line.head? = some '#' then values
  else
    match splitOnce '=' line with
    | none => values
    | some (key, rawValue) =>
      let key := trimmed key
      if key = "" then values
      else if (values.lookup key).isSome then values
      else values ++ [(key, decodeOsReleaseValue rawValue)]

/-- `parse_linux_os_release`. -/
def parseLinuxOsRelease (content : String) : OsRelease :=
  let values := (lines content).foldl readOsReleaseLine []
  { name := ((values.lookup "PRETTY_NAME").or (values.lookup "NAME")).bind nonBlank
    version := (((values.lookup "VERSION_ID").or (values.lookup "VERSION_CODENAME")).or
      (values.lookup "UBUNTU_CODENAME")).bind nonBlank }

/-! ## Documents -/

/-- The name of a shell variable. -/
structure ShellName where
  text : List Char
  nonempty : text ≠ []
  plain : ∀ c ∈ text, (c.isAlphanum || c = '_') = true

/-- What the shell gives a meaning to, in double quotes. -/
def isSpecial (c : Char) : Bool := c = '"' || c = '\\' || c = '$' || c = '\x60'

/-- A value, and how it is written. -/
inductive ShellValue where
  /-- As it is: without quotes and special characters, blank at no end. -/
  | unquoted (value : List Char)
      (plain : ∀ c ∈ value, isSpecial c = false ∧ c ≠ '\'' ∧ c ≠ '\n')
      (first : ∀ c ∈ value.head?, isWhitespace c = false)
      (last : ∀ c ∈ value.getLast?, isWhitespace c = false)
  /-- In single quotes, where nothing has a meaning but these. -/
  | single (value : List Char) (plain : ∀ c ∈ value, c ≠ '\'' ∧ c ≠ '\n')
  /-- In double quotes, with a backslash before every special character. -/
  | double (value : List Char) (plain : ∀ c ∈ value, c ≠ '\n')

namespace ShellValue

/-- The value. -/
def decoded : ShellValue → List Char
  | .unquoted value .. | .single value _ | .double value _ => value

def escaped (value : List Char) : List Char :=
  value.flatMap fun c => if isSpecial c then ['\\', c] else [c]

/-- The value as it is written. -/
def written : ShellValue → List Char
  | .unquoted value .. => value
  | .single value _ => '\'' :: (value ++ ['\''])
  | .double value _ => '"' :: (escaped value ++ ['"'])

end ShellValue

/-- Blanks within a line. -/
abbrev Blanks := { text : List Char // ∀ c ∈ text, isWhitespace c = true ∧ c ≠ '\n' }

/-- What is in a line. -/
inductive ShellLine where
  | blank
  | comment (text : { text : List Char // '\n' ∉ text })
  | assignment (key : ShellName) (value : ShellValue)

def ShellLine.written : ShellLine → List Char
  | .blank => []
  | .comment text => '#' :: text.1
  | .assignment key value => key.text ++ '=' :: value.written

/-- What the line says. -/
def ShellLine.assigns : ShellLine → Option (String × String)
  | .blank | .comment _ => none
  | .assignment key value => some (String.ofList key.text, String.ofList value.decoded)

/-- An os-release document: its lines, with the blanks around them. -/
abbrev OsReleaseDocument := List (Blanks × ShellLine × Blanks)

namespace OsReleaseDocument

def writtenLine (line : Blanks × ShellLine × Blanks) : List Char :=
  line.1.1 ++ line.2.1.written ++ line.2.2.1

/-- The text of the document. -/
def text (document : OsReleaseDocument) : String :=
  String.ofList (['\n'].intercalate (document.map writtenLine))

/-- The value a key is first assigned. -/
def value (document : OsReleaseDocument) (key : String) : Option String :=
  (document.filterMap (·.2.1.assigns)).lookup key

end OsReleaseDocument

/-! ## Lines -/

variable {front text back : List Char}

theorem dropWhile_blanks (h : ∀ c ∈ front, isWhitespace c = true) :
    (front ++ text).dropWhile isWhitespace = text.dropWhile isWhitespace :=
  List.dropWhile_append_of_pos h

/-- The blanks around a text are no part of what is trimmed. -/
theorem trim_padded (hfront : ∀ c ∈ front, isWhitespace c = true)
    (hback : ∀ c ∈ back, isWhitespace c = true) :
    trim (String.ofList (front ++ text ++ back)) = trim (String.ofList text) := by
  unfold trim
  rw [String.toList_ofList, String.toList_ofList, List.append_assoc, dropWhile_blanks hfront]
  congr 1
  by_cases hblank : ∀ c ∈ text, isWhitespace c = true
  · have hall : ∀ c ∈ text ++ back, isWhitespace c = true := fun c hc =>
      (List.mem_append.mp hc).elim (hblank c) (hback c)
    rw [List.dropWhile_eq_nil_iff.mpr hall, List.dropWhile_eq_nil_iff.mpr hblank]
  · have hne : text.dropWhile isWhitespace ≠ [] := fun h =>
      hblank (List.dropWhile_eq_nil_iff.mp h)
    rw [List.dropWhile_append, if_neg (by simpa using hne), List.reverse_append]
    exact dropWhile_blanks fun c hc => hback c (List.mem_reverse.mp hc)

/-- A text that is blank at no end stays as it is. -/
theorem trim_of_ends (hfirst : ∀ c ∈ text.head?, isWhitespace c = false)
    (hlast : ∀ c ∈ text.getLast?, isWhitespace c = false) : trim (String.ofList text) = text := by
  have keeps : ∀ {text : List Char}, (∀ c ∈ text.head?, isWhitespace c = false) →
      text.dropWhile isWhitespace = text := by
    intro text h
    cases text with
    | nil => rfl
    | cons c text => exact List.dropWhile_cons_of_neg (by rw [h c rfl]; exact Bool.false_ne_true)
  unfold trim
  rw [String.toList_ofList, keeps hfirst, keeps (by rwa [List.head?_reverse]),
    List.reverse_reverse]

/-- What a text begins with, if that is no blank. -/
theorem head?_trim {c : Char} (h : isWhitespace c = false) :
    (trim (String.ofList (c :: text))).head? = some c := by
  unfold trim
  rw [String.toList_ofList, List.dropWhile_cons_of_neg (by rw [h]; exact Bool.false_ne_true),
    List.reverse_cons, List.dropWhile_append]
  split
  · rw [List.dropWhile_cons_of_neg (by rw [h]; exact Bool.false_ne_true)]
    rfl
  · rw [List.reverse_append]
    rfl

/-- What is read in a line is what is left of it when it is trimmed. -/
theorem readOsReleaseLine_congr {values : List (String × String)} {line line' : List Char}
    (h : trim (String.ofList line) = trim (String.ofList line')) :
    readOsReleaseLine values line = readOsReleaseLine values line' := by
  unfold readOsReleaseLine
  rw [h]

theorem readOsReleaseLine_blank (values : List (String × String)) :
    readOsReleaseLine values [] = values := by
  unfold readOsReleaseLine
  exact if_pos (.inl rfl)

/-- The carriage returns that `lines` takes away are blanks. -/
theorem readOsReleaseLine_ended (values : List (String × String)) (line : List Char) :
    readOsReleaseLine values (if line.getLast? = some '\r' then line.dropLast else line)
      = readOsReleaseLine values line := by
  split
  · next hreturn =>
    refine readOsReleaseLine_congr ?_
    have hline : line = line.dropLast ++ ['\r'] := by
      rw [List.dropLast_append_getLast?]
      exact hreturn
    have hblank : ∀ c ∈ ['\r'], isWhitespace c = true := List.all_eq_true.mp rfl
    have hpadded := @trim_padded [] line.dropLast ['\r'] (fun _ h => (by cases h)) hblank
    rw [List.nil_append, ← hline] at hpadded
    exact hpadded.symm
  · rfl

/-- The values are those of the lines between the line feeds. -/
theorem foldl_lines (content : String) (values : List (String × String)) :
    (lines content).foldl readOsReleaseLine values
      = (content.toList.splitOn '\n').foldl readOsReleaseLine values := by
  unfold lines
  dsimp only
  have hne := List.splitOn_ne_nil '\n' content.toList
  generalize content.toList.splitOn '\n' = parts at hne ⊢
  have hended : (fun values line => readOsReleaseLine values
      (if line.getLast? = some '\r' then line.dropLast else line)) = readOsReleaseLine := by
    funext values line
    exact readOsReleaseLine_ended values line
  conv_rhs => rw [← List.dropLast_append_getLast hne]
  rw [List.foldl_append, List.foldl_map, hended, List.foldl_append, List.getLast?_eq_some_getLast hne]
  by_cases hlast : parts.getLast hne = []
  · rw [Option.filter_some_neg (by simpa using hlast), hlast]
    exact (readOsReleaseLine_blank _).symm
  · rw [Option.filter_some_pos (by simpa using hlast)]
    rfl

/-! ## Names and values -/

theorem isWhitespace_of_name {c : Char} (h : (c.isAlphanum || c = '_') = true) :
    isWhitespace c = false ∧ c ≠ '=' ∧ c ≠ '#' ∧ c ≠ '\n' := by
  refine ⟨?_, fun hc => absurd (hc ▸ h) (by decide), fun hc => absurd (hc ▸ h) (by decide),
    fun hc => absurd (hc ▸ h) (by decide)⟩
  have hrange : 48 ≤ c.toNat ∧ c.toNat ≤ 122 := by
    rcases Bool.or_eq_true_iff.mp h with halnum | hunderscore
    · rcases Bool.or_eq_true_iff.mp halnum with halpha | hdigit
      · rcases Bool.or_eq_true_iff.mp halpha with hupper | hlower
        · have hupper : 65 ≤ c.toNat ∧ c.toNat ≤ 90 := of_decide_eq_true hupper
          omega
        · have hlower := Bool.and_eq_true_iff.mp hlower
          have hlower : 97 ≤ c.toNat ∧ c.toNat ≤ 122 :=
            ⟨of_decide_eq_true hlower.1, of_decide_eq_true hlower.2⟩
          omega
      · have hdigit := Bool.and_eq_true_iff.mp hdigit
        have hdigit : 48 ≤ c.toNat ∧ c.toNat ≤ 57 :=
          ⟨of_decide_eq_true hdigit.1, of_decide_eq_true hdigit.2⟩
        omega
    · rw [of_decide_eq_true hunderscore]
      decide
  unfold isWhitespace
  simp
  omega

/-- What was escaped is taken as it was. -/
theorem unescape_escaped (value : List Char) : unescape (ShellValue.escaped value) = value := by
  induction value with
  | nil => rfl
  | cons c value ih =>
    by_cases hspecial : isSpecial c = true
    · have hescaped : ShellValue.escaped (c :: value) = '\\' :: c :: ShellValue.escaped value := by
        unfold ShellValue.escaped
        rw [List.flatMap_cons, if_pos hspecial]
        rfl
      rw [hescaped, unescape, ih]
    · have hescaped : ShellValue.escaped (c :: value) = c :: ShellValue.escaped value := by
        unfold ShellValue.escaped
        rw [List.flatMap_cons, if_neg hspecial]
        rfl
      have hplain : c ≠ '\\' := fun h => hspecial (h ▸ rfl)
      rw [hescaped, unescape, ih]
      exact fun c' rest hc _ => hplain hc

theorem unescape_plain {value : List Char} (h : ∀ c ∈ value, c ≠ '\\') : unescape value = value := by
  induction value with
  | nil => rfl
  | cons c value ih =>
    rw [unescape, ih fun c hc => h c (List.mem_cons_of_mem _ hc)]
    exact fun c' rest hc _ => h c List.mem_cons_self hc

theorem isQuoted_quoted (quote : Char) (value : List Char) :
    isQuoted quote (quote :: (value ++ [quote])) = true := by
  have hlen : 2 ≤ utf8Length (quote :: (value ++ [quote])) := by
    unfold utf8Length
    have hquote := Char.utf8Size_pos quote
    simp
    omega
  have hlast : (quote :: (value ++ [quote])).getLast? = some quote :=
    List.getLast?_concat (l := quote :: value)
  unfold isQuoted
  simp only [List.head?_cons, hlast, hlen, decide_true, Bool.and_self]

theorem isQuoted_of_ne {quote c : Char} (value : List Char) (h : c ≠ quote) :
    isQuoted quote (c :: value) = false := by
  unfold isQuoted
  simp [h]

theorem dropLast_quoted (quote : Char) (value : List Char) :
    (quote :: (value ++ [quote])).tail.dropLast = value :=
  List.dropLast_concat

/-- No value that is written is blank at one end. -/
theorem ShellValue.written_ends (v : ShellValue) :
    (∀ c ∈ v.written.head?, isWhitespace c = false) ∧
      ∀ c ∈ v.written.getLast?, isWhitespace c = false := by
  cases v with
  | unquoted value plain first last => exact ⟨first, last⟩
  | single value plain =>
    refine ⟨fun c hc => ?_, fun c hc => ?_⟩
    · cases hc
      decide
    · have hlast : (ShellValue.single value plain).written.getLast? = some '\'' :=
        List.getLast?_concat (l := '\'' :: value)
      cases hlast.symm.trans hc
      decide
  | double value plain =>
    refine ⟨fun c hc => ?_, fun c hc => ?_⟩
    · cases hc
      decide
    · have hlast : (ShellValue.double value plain).written.getLast? = some '"' :=
        List.getLast?_concat (l := '"' :: ShellValue.escaped value)
      cases hlast.symm.trans hc
      decide

/-- **A value is decoded to what it was.** -/
theorem decodeOsReleaseValue_written (v : ShellValue) :
    decodeOsReleaseValue v.written = String.ofList v.decoded := by
  unfold decodeOsReleaseValue
  rw [trim_of_ends v.written_ends.1 v.written_ends.2]
  cases v with
  | unquoted value plain first last =>
    have hunquoted : ∀ quote, (∀ c ∈ value, c ≠ quote) → isQuoted quote value = false := by
      intro quote hquote
      cases value with
      | nil => rfl
      | cons c value => exact isQuoted_of_ne value (hquote c List.mem_cons_self)
    have hdouble : isQuoted '"' value = false := hunquoted '"' fun c hc h =>
      absurd (plain c hc).1 (h ▸ by decide)
    have hsingle : isQuoted '\'' value = false := hunquoted '\'' fun c hc => (plain c hc).2.1
    dsimp only [ShellValue.written, ShellValue.decoded]
    rw [hdouble, hsingle, if_neg Bool.false_ne_true, if_neg Bool.false_ne_true,
      unescape_plain fun c hc h => absurd (plain c hc).1 (h ▸ by decide)]
  | single value plain =>
    dsimp only [ShellValue.written, ShellValue.decoded]
    rw [isQuoted_of_ne _ (by decide), isQuoted_quoted, if_neg Bool.false_ne_true, if_pos rfl,
      dropLast_quoted]
  | double value plain =>
    dsimp only [ShellValue.written, ShellValue.decoded]
    rw [isQuoted_quoted, if_pos rfl, dropLast_quoted, unescape_escaped]

/-! ## Assignments -/

theorem splitOnce_assignment (key : ShellName) (raw : List Char) :
    splitOnce '=' (key.text ++ '=' :: raw) = some (key.text, raw) := by
  have hkey : ∀ c ∈ key.text, decide (c ≠ '=') = true := fun c hc =>
    decide_eq_true (isWhitespace_of_name (key.plain c hc)).2.1
  unfold splitOnce
  rw [List.dropWhile_append_of_pos hkey, List.takeWhile_append_of_pos hkey,
    List.dropWhile_cons_of_neg (by decide), List.takeWhile_cons_of_neg (by decide), List.append_nil]

/-- What a line adds: the value of a key that has none. -/
theorem readOsReleaseLine_written (values : List (String × String))
    (line : Blanks × ShellLine × Blanks) :
    readOsReleaseLine values (OsReleaseDocument.writtenLine line) = line.2.1.assigns.elim values
      fun assignment =>
        if (values.lookup assignment.1).isSome then values else values ++ [assignment] := by
  obtain ⟨before, content, after⟩ := line
  have hpadded : readOsReleaseLine values (OsReleaseDocument.writtenLine (before, content, after))
      = readOsReleaseLine values content.written :=
    readOsReleaseLine_congr (trim_padded (fun c hc => (before.2 c hc).1) fun c hc =>
      (after.2 c hc).1)
  rw [hpadded]
  cases content with
  | blank => exact readOsReleaseLine_blank values
  | comment text => exact if_pos (.inr (head?_trim (by decide)))
  | assignment key value =>
    obtain ⟨first, rest, htext⟩ := List.exists_cons_of_ne_nil key.nonempty
    have hfirst : isWhitespace first = false ∧ first ≠ '=' ∧ first ≠ '#' ∧ first ≠ '\n' :=
      isWhitespace_of_name (key.plain first (htext ▸ List.mem_cons_self))
    have htrim : trim (String.ofList (key.text ++ '=' :: value.written))
        = key.text ++ '=' :: value.written := by
      refine trim_of_ends (fun c hc => ?_) fun c hc => ?_
      · rw [htext] at hc
        cases hc
        exact hfirst.1
      · rw [List.getLast?_append] at hc
        cases hwritten : value.written with
        | nil =>
          rw [hwritten] at hc
          cases hc
          decide
        | cons d written =>
          rw [hwritten, List.getLast?_cons_cons] at hc
          refine value.written_ends.2 c ?_
          have hlast : (d :: written).getLast? = some _ := List.getLast?_cons
          rw [hwritten, hlast]
          rw [hlast] at hc
          exact hc
    have hkey : trimmed key.text = String.ofList key.text :=
      congrArg String.ofList (trim_of_ends (fun c hc =>
        (isWhitespace_of_name (key.plain c (List.mem_of_mem_head? hc))).1) fun c hc =>
        (isWhitespace_of_name (key.plain c (List.mem_of_mem_getLast? hc))).1)
    have hname : String.ofList key.text ≠ "" := fun h =>
      key.nonempty (String.ofList_injective h)
    have hopen : ¬ (key.text ++ '=' :: value.written = [] ∨
        (key.text ++ '=' :: value.written).head? = some '#') := by
      rw [htext]
      rintro (h | h)
      · cases h
      · exact hfirst.2.2.1 (Option.some.inj h)
    unfold readOsReleaseLine
    dsimp only [ShellLine.written]
    rw [htrim, if_neg hopen, splitOnce_assignment]
    dsimp only
    rw [hkey, if_neg hname, decodeOsReleaseValue_written]
    rfl

/-! ## Documents -/

namespace OsReleaseDocument

theorem lookup_readLines (document : OsReleaseDocument) (values : List (String × String))
    (key : String) :
    ((document.map writtenLine).foldl readOsReleaseLine values).lookup key
      = (values.lookup key).or (document.value key) := by
  induction document generalizing values with
  | nil => exact (Option.or_none).symm
  | cons line document ih =>
    rw [List.map_cons, List.foldl_cons, ih, readOsReleaseLine_written]
    unfold value
    rw [List.filterMap_cons]
    cases line.2.1.assigns with
    | none => rfl
    | some assignment =>
      dsimp only [Option.elim_some]
      obtain ⟨name, text⟩ := assignment
      rw [List.lookup_cons]
      by_cases hname : key = name
      · subst hname
        rw [beq_self_eq_true]
        cases hlookup : values.lookup key with
        | some _ =>
          rw [if_pos (Option.isSome_some), hlookup]
          rfl
        | none =>
          rw [if_neg (show ¬ (none : Option String).isSome = true from Bool.false_ne_true), List.lookup_append, hlookup, List.lookup_cons,
            beq_self_eq_true]
          rfl
      · rw [beq_eq_false_iff_ne.mpr hname]
        split
        · rfl
        · rw [List.lookup_append, List.lookup_cons, beq_eq_false_iff_ne.mpr hname, List.lookup_nil,
            Option.or_none]

theorem mem_escaped {value : List Char} {c : Char} (h : c ∈ ShellValue.escaped value) :
    c = '\\' ∨ c ∈ value := by
  obtain ⟨d, hd, hc⟩ := List.mem_flatMap.mp h
  split at hc
  · rcases List.mem_cons.mp hc with hbackslash | hc
    · exact .inl hbackslash
    · exact .inr (List.mem_singleton.mp hc ▸ hd)
  · exact .inr (List.mem_singleton.mp hc ▸ hd)

/-- No line has a line feed in it. -/
theorem no_lineFeed (line : Blanks × ShellLine × Blanks) : '\n' ∉ writtenLine line := by
  obtain ⟨before, content, after⟩ := line
  have hcontent : '\n' ∉ content.written := by
    cases content with
    | blank => exact List.not_mem_nil
    | comment text => exact fun h => (List.mem_cons.mp h).elim (by decide) text.2
    | assignment key value =>
      have hvalue : '\n' ∉ value.written := by
        cases value with
        | unquoted value plain _ _ => exact fun h => (plain _ h).2.2 rfl
        | single value plain =>
          intro h
          rcases List.mem_append.mp (List.mem_of_ne_of_mem (by decide) h) with h | h
          · exact (plain _ h).2 rfl
          · exact absurd (List.mem_singleton.mp h) (by decide)
        | double value plain =>
          intro h
          rcases List.mem_append.mp (List.mem_of_ne_of_mem (by decide) h) with h | h
          · exact (mem_escaped h).elim (by decide) fun h => plain _ h rfl
          · exact absurd (List.mem_singleton.mp h) (by decide)
      intro h
      rcases List.mem_append.mp h with hkey | hrest
      · exact (isWhitespace_of_name (key.plain _ hkey)).2.2.2 rfl
      · exact (List.mem_cons.mp hrest).elim (by decide) hvalue
  intro h
  rcases List.mem_append.mp h with h | hafter
  · rcases List.mem_append.mp h with hbefore | hmiddle
    · exact (before.2 _ hbefore).2 rfl
    · exact hcontent hmiddle
  · exact (after.2 _ hafter).2 rfl

/-- **Every key has the value it is first assigned.** -/
theorem lookup_values (document : OsReleaseDocument) (key : String) :
    ((lines document.text).foldl readOsReleaseLine []).lookup key = document.value key := by
  rw [foldl_lines]
  unfold text
  rw [String.toList_ofList]
  cases document with
  | nil => rfl
  | cons line document =>
    have hlines : ∀ text ∈ List.map writtenLine (line :: document), '\n' ∉ text := by
      intro text htext
      obtain ⟨line', -, rfl⟩ := List.mem_map.mp htext
      exact no_lineFeed line'
    rw [List.splitOn_intercalate '\n' hlines (List.cons_ne_nil _ _), lookup_readLines]
    rfl

end OsReleaseDocument

/-- **What is reported of a document** is the value of the first key that is
there, trimmed, and nothing if it is blank. -/
theorem parse_document (document : OsReleaseDocument) :
    parseLinuxOsRelease document.text =
      { name := ((document.value "PRETTY_NAME").or (document.value "NAME")).bind nonBlank
        version := (((document.value "VERSION_ID").or (document.value "VERSION_CODENAME")).or
          (document.value "UBUNTU_CODENAME")).bind nonBlank } := by
  unfold parseLinuxOsRelease
  dsimp only
  simp only [OsReleaseDocument.lookup_values]

/-- The first value of these keys that is not blank. -/
def OsReleaseDocument.firstNonBlank (document : OsReleaseDocument) (keys : List String) :
    Option String :=
  (keys.filterMap document.value).find? fun value => trim value ≠ []

namespace Sample

def noBlanks : Blanks := ⟨[], fun _ h => (by cases h)⟩

def assignment (key : ShellName) (value : String) (h : ∀ c ∈ value.toList, c ≠ '\n') :
    Blanks × ShellLine × Blanks :=
  (noBlanks, .assignment key (.double value.toList h), noBlanks)

def prettyNameKey : ShellName := ⟨"PRETTY_NAME".toList, by decide, List.all_eq_true.mp rfl⟩

def nameKey : ShellName := ⟨"NAME".toList, by decide, List.all_eq_true.mp rfl⟩

/-- A distribution without a pretty name, which it assigns nevertheless. -/
def plainName : OsReleaseDocument :=
  [assignment prettyNameKey "" (List.forall_mem_ne'.mpr (by decide)),
    assignment nameKey "Debian" (List.forall_mem_ne'.mpr (by decide))]

def paddedName : OsReleaseDocument :=
  [assignment nameKey " Debian " (List.forall_mem_ne'.mpr (by decide))]

/-- **A name that is not reported**, the one before it being blank, and one that
is not reported as it is. -/
theorem blank_value_counts :
    (plainName.firstNonBlank ["PRETTY_NAME", "NAME"] = some "Debian" ∧
      (parseLinuxOsRelease plainName.text).name = none) ∧
    (paddedName.firstNonBlank ["PRETTY_NAME", "NAME"] = some " Debian " ∧
      (parseLinuxOsRelease paddedName.text).name = some "Debian") := by
  decide

end Sample

end Lariska
