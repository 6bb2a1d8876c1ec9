import Lariska.RuntimeMetadata

/-!
# The signer of a macOS package

`pkgutil --check-signature` prints the chain of certificates a package is signed
with, each under a line with its number. `macos_leaf_signature` takes the name
and the fingerprint of the first from it, which is the signer.

What is said of the other certificates must not matter, whatever it is: their
fingerprints are those of authorities, with which many packages are signed. The
lines that count are those from the first with the number 1 to the next that
has a number, `leafBlock`, and what the code returns is a function of these.
-/

namespace Lariska

/-! ## The code -/

/-- `is_ascii_hexdigit`. -/
def isAsciiHexdigit (c : Char) : Bool :=
  c.isDigit || 'a' ≤ c && c ≤ 'f' || 'A' ≤ c && c ≤ 'F'

structure MacosLeafSignature where
  subject : String
  sha256 : String
deriving DecidableEq

/-- What the loop keeps between two lines. -/
structure LeafScan where
  inLeaf : Bool
  subject : Option String
  digest : List Char
  readingDigest : Bool

/-- The number of a certificate and the name after it. -/
def certificateLine (text : List Char) : Option (List Char × List Char) := do
  let (number, name) ← splitOnce '.' text
  if number.all Char.isDigit ∧ number ≠ [] then some (number, name) else none

/-- The value after one of the labels. -/
def fingerprintValue (text : List Char) : Option (List Char) := do
  let (label, value) ← splitOnce ':' text
  if eqIgnoreAsciiCase (trimmed label) "SHA256 Fingerprint" ∨
      eqIgnoreAsciiCase (trimmed label) "SHA-256 Fingerprint" then
    some value
  else none

/-- A line of hexadecimal digits, and what stands between them. -/
def isWrapped (text : List Char) : Bool :=
  text.all fun c => isAsciiHexdigit c || c = ':' || isWhitespace c

/-- One line of the loop, `none` where it ends with a `break`. -/
def LeafScan.line (s : LeafScan) (line : List Char) : Option LeafScan :=
  let text := trim (String.ofList line)
  match certificateLine text with
  | some (number, name) =>
    if s.inLeaf then none
    else if number = ['1'] then some { s with inLeaf := true, subject := some (trimmed name) }
    else some s
  | none =>
    if ¬ s.inLeaf then some s
    else
      match fingerprintValue text with
      | some value =>
        some { s with
          digest := s.digest ++ value.filter isAsciiHexdigit
          readingDigest := true }
      | none =>
        if ¬ s.readingDigest then some s
        else if isWrapped text then
          some { s with digest := s.digest ++ text.filter isAsciiHexdigit }
        else some { s with readingDigest := false }

/-- The lines up to the `break`. -/
def LeafScan.lines (s : LeafScan) : List (List Char) → LeafScan
  | [] => s
  | line :: rest =>
    match s.line line with
    | some s => s.lines rest
    | none => s

/-- What the function ends with. -/
def LeafScan.result (s : LeafScan) : Except String MacosLeafSignature := do
  let subject ← match s.subject with
    | some subject => .ok subject
    | none => .error "macOS package signature has no leaf certificate"
  demand (s.digest.length = 64)
    "macOS leaf certificate has no unambiguous SHA-256 fingerprint"
  .ok ⟨subject, toAsciiLowercase (String.ofList s.digest)⟩

def LeafScan.start : LeafScan := ⟨false, none, [], false⟩

/-- `macos_leaf_signature`. -/
def macosLeafSignature (output : String) : Except String MacosLeafSignature :=
  (LeafScan.start.lines (lines output)).result

/-! ## The block of the leaf -/

/-- The line has the number of a certificate. -/
def isNumbered (line : List Char) : Bool := (certificateLine (trim (String.ofList line))).isSome

/-- The line has the number 1. -/
def isLeafHead (line : List Char) : Bool :=
  (certificateLine (trim (String.ofList line))).any (·.1 = ['1'])

/-- **The block of the leaf**: the first line with the number 1, and the lines
up to the next that has a number. -/
def leafBlock (lines : List (List Char)) : List (List Char) :=
  match lines.dropWhile (! isLeafHead ·) with
  | [] => []
  | head :: rest => head :: rest.takeWhile (! isNumbered ·)

/-- The lines at the beginning that continue a fingerprint. -/
def wrappedLines (body : List (List Char)) : List (List Char) :=
  (body.map fun line => trim (String.ofList line)).takeWhile fun text =>
    (fingerprintValue text).isNone && isWrapped text

/-- What the lines say of fingerprints: the values of those with a label, each
with the lines it is continued on. -/
def fingerprintParts : List (List Char) → List (List Char)
  | [] => []
  | line :: rest =>
    match fingerprintValue (trim (String.ofList line)) with
    | some value => value :: wrappedLines rest ++ fingerprintParts rest
    | none => fingerprintParts rest

/-- The hexadecimal digits of the fingerprint lines of the block. -/
def blockDigits (block : List (List Char)) : List Char :=
  ((fingerprintParts block.tail).flatten).filter isAsciiHexdigit

/-! ## Outside the block -/

variable {s : LeafScan} {line : List Char} {rest before body after : List (List Char)}

/-- Before the leaf, nothing is kept of a line. -/
theorem line_before (hs : s.inLeaf = false) (h : isLeafHead line = false) :
    s.line line = some s := by
  unfold isLeafHead at h
  unfold LeafScan.line
  dsimp only
  rw [hs]
  cases hline : certificateLine (trim (String.ofList line)) with
  | none => rfl
  | some certificate =>
    rw [hline] at h
    have hnumber : ¬ certificate.1 = ['1'] := of_decide_eq_false h
    dsimp only
    rw [if_neg Bool.false_ne_true, if_neg hnumber]

theorem lines_before (hs : s.inLeaf = false) (h : ∀ line ∈ before, isLeafHead line = false) :
    s.lines (before ++ rest) = s.lines rest := by
  induction before with
  | nil => rfl
  | cons line before ih =>
    show (match s.line line with | some s => s.lines (before ++ rest) | none => s) = s.lines rest
    rw [line_before hs (h line List.mem_cons_self)]
    exact ih fun line hmem => h line (List.mem_cons_of_mem _ hmem)

/-- The head of the leaf: its name is what comes after the number. -/
theorem line_head (h : isLeafHead line = true) :
    ∃ name, LeafScan.start.line line = some { LeafScan.start with inLeaf := true, subject := some name } := by
  unfold isLeafHead at h
  unfold LeafScan.line
  dsimp only
  cases hline : certificateLine (trim (String.ofList line)) with
  | none =>
    rw [hline] at h
    cases h
  | some certificate =>
    rw [hline] at h
    have hnumber : certificate.1 = ['1'] := of_decide_eq_true h
    refine ⟨trimmed certificate.2, ?_⟩
    dsimp only
    rw [if_neg (show ¬ LeafScan.start.inLeaf = true from Bool.false_ne_true), if_pos hnumber]

/-- In the leaf, a numbered line ends the loop. -/
theorem line_numbered (hs : s.inLeaf = true) (h : isNumbered line = true) : s.line line = none := by
  obtain ⟨certificate, hline⟩ := Option.isSome_iff_exists.mp h
  unfold LeafScan.line
  dsimp only
  rw [hline]
  exact if_pos hs

/-- What a line in the leaf does: with a label, it begins a fingerprint; where
one is read, it may continue it. -/
theorem line_body (hs : s.inLeaf = true) (h : isNumbered line = false) :
    s.line line = some (match fingerprintValue (trim (String.ofList line)) with
      | some value => { s with
          digest := s.digest ++ value.filter isAsciiHexdigit
          readingDigest := true }
      | none =>
        if s.readingDigest ∧ isWrapped (trim (String.ofList line)) then
          { s with digest := s.digest ++ (trim (String.ofList line)).filter isAsciiHexdigit }
        else { s with readingDigest := false }) := by
  have hline : certificateLine (trim (String.ofList line)) = none :=
    Option.isNone_iff_eq_none.mp (Option.isSome_eq_false_iff.mp h)
  unfold LeafScan.line
  dsimp only
  rw [hline]
  dsimp only
  rw [if_neg (not_not_intro hs)]
  cases hvalue : fingerprintValue (trim (String.ofList line)) with
  | some value => rfl
  | none =>
    dsimp only
    by_cases hreading : s.readingDigest = true
    · rw [if_neg (not_not_intro hreading)]
      by_cases hwrapped : isWrapped (trim (String.ofList line)) = true
      · rw [if_pos hwrapped, if_pos ⟨hreading, hwrapped⟩]
      · rw [if_neg hwrapped, if_neg fun hboth => hwrapped hboth.2]
    · have hsame : s = { s with readingDigest := false } := by
        rw [← Bool.of_not_eq_true hreading]
      rw [if_pos hreading, if_neg fun hboth => hreading hboth.1, ← hsame]

theorem inLeaf_body {s' : LeafScan} (hs : s.inLeaf = true) (h : isNumbered line = false)
    (hline : s.line line = some s') : s'.inLeaf = true ∧ s'.subject = s.subject := by
  rw [line_body hs h] at hline
  cases hline
  cases fingerprintValue (trim (String.ofList line)) with
  | some value => exact ⟨hs, rfl⟩
  | none =>
    dsimp only
    split_ifs
    · exact ⟨hs, rfl⟩
    · exact ⟨hs, rfl⟩

/-- After the leaf, no line is read. -/
theorem lines_after (hs : s.inLeaf = true) :
    s.lines rest = s.lines (rest.takeWhile (! isNumbered ·)) := by
  induction rest generalizing s with
  | nil => rfl
  | cons line rest ih =>
    by_cases h : isNumbered line = true
    · rw [List.takeWhile_cons_of_neg (by rw [h]; exact Bool.false_ne_true)]
      show (match s.line line with | some s => s.lines rest | none => s) = s
      rw [line_numbered hs h]
    · have hnot : isNumbered line = false := Bool.of_not_eq_true h
      rw [List.takeWhile_cons_of_pos (by rw [hnot]; rfl)]
      show (match s.line line with | some s => s.lines rest | none => s)
        = match s.line line with
          | some s => s.lines (rest.takeWhile (! isNumbered ·))
          | none => s
      cases hline : s.line line with
      | none => rfl
      | some s' => exact ih (inLeaf_body hs hnot hline).1

/-- The block of a text that is cut before and behind it. -/
theorem leafBlock_eq {head : List Char} (hbefore : ∀ line ∈ before, isLeafHead line = false)
    (hhead : isLeafHead head = true) (hbody : ∀ line ∈ body, isNumbered line = false)
    (hafter : ∀ line ∈ after.head?, isNumbered line = true) :
    leafBlock (before ++ head :: (body ++ after)) = head :: body := by
  unfold leafBlock
  rw [List.dropWhile_append_of_pos fun line hline => by rw [hbefore line hline]; rfl,
    List.dropWhile_cons_of_neg (by rw [hhead]; exact Bool.false_ne_true)]
  show head :: (body ++ after).takeWhile (! isNumbered ·) = head :: body
  rw [List.takeWhile_append_of_pos fun line hline => by rw [hbody line hline]; rfl]
  cases after with
  | nil => rw [List.takeWhile_nil, List.append_nil]
  | cons line after =>
    rw [List.takeWhile_cons_of_neg (by rw [hafter line rfl]; exact Bool.false_ne_true),
      List.append_nil]

/-- **Only the block is read.** -/
theorem lines_leafBlock (text : List (List Char)) :
    LeafScan.start.lines text = LeafScan.start.lines (leafBlock text) := by
  have hbefore : ∀ line ∈ text.takeWhile (! isLeafHead ·), isLeafHead line = false := by
    intro line hline
    have hnot : (! isLeafHead line) = true :=
      List.mem_takeWhile_imp (p := (! isLeafHead ·)) hline
    exact Bool.not_eq_true' _ ▸ hnot
  have hskip : LeafScan.start.lines text
      = LeafScan.start.lines (text.dropWhile (! isLeafHead ·)) := by
    conv_lhs => rw [← List.takeWhile_append_dropWhile (p := (! isLeafHead ·)) (l := text)]
    exact lines_before rfl hbefore
  rw [hskip]
  unfold leafBlock
  cases hdrop : text.dropWhile (! isLeafHead ·) with
  | nil => rfl
  | cons head rest =>
    have hhead : isLeafHead head = true := by
      have hnot := List.head?_dropWhile_not (! isLeafHead ·) text
      rw [hdrop] at hnot
      exact Bool.not_eq_false' .. ▸ hnot
    obtain ⟨name, hline⟩ := line_head hhead
    show (match LeafScan.start.line head with | some s => s.lines rest | none => LeafScan.start)
      = match LeafScan.start.line head with
        | some s => s.lines (rest.takeWhile (! isNumbered ·))
        | none => LeafScan.start
    rw [hline]
    exact lines_after rfl

/-! ## The digits of the block -/

/-- **What is read in the leaf**: where a fingerprint is being read, the lines
that continue it, and then every one that begins with a label. -/
theorem digest_lines (hs : s.inLeaf = true) (hbody : ∀ line ∈ body, isNumbered line = false) :
    (s.lines body).subject = s.subject ∧ (s.lines body).digest = s.digest ++
      ((if s.readingDigest then wrappedLines body else []).flatten ++
        (fingerprintParts body).flatten).filter isAsciiHexdigit := by
  induction body generalizing s with
  | nil =>
    refine ⟨rfl, ?_⟩
    have hnothing : (if s.readingDigest then wrappedLines [] else []) = [] := ite_self _
    rw [hnothing]
    exact (List.append_nil s.digest).symm
  | cons line body ih =>
    have hline := line_body hs (hbody line List.mem_cons_self)
    have hrest : ∀ line ∈ body, isNumbered line = false := fun line hmem =>
      hbody line (List.mem_cons_of_mem _ hmem)
    have hlines : s.lines (line :: body)
        = match s.line line with | some s => s.lines body | none => s := rfl
    rw [hlines, hline]
    dsimp only
    cases hvalue : fingerprintValue (trim (String.ofList line)) with
    | some value =>
      -- A label: what was being read is over.
      have hparts : fingerprintParts (line :: body)
          = value :: wrappedLines body ++ fingerprintParts body := by
        rw [fingerprintParts, hvalue]
      have hover : wrappedLines (line :: body) = [] := by
        unfold wrappedLines
        rw [List.map_cons, List.takeWhile_cons_of_neg (by simp [hvalue])]
      obtain ⟨hsubject, hdigest⟩ := @ih { s with
        digest := s.digest ++ value.filter isAsciiHexdigit, readingDigest := true } hs hrest
      refine ⟨hsubject, hdigest.trans ?_⟩
      rw [hparts, hover]
      simp [List.append_assoc]
    | none =>
      have hparts : fingerprintParts (line :: body) = fingerprintParts body := by
        rw [fingerprintParts, hvalue]
      dsimp only
      rw [hparts]
      by_cases hcontinues : s.readingDigest = true ∧ isWrapped (trim (String.ofList line)) = true
      · have hmore : wrappedLines (line :: body)
            = trim (String.ofList line) :: wrappedLines body := by
          unfold wrappedLines
          rw [List.map_cons, List.takeWhile_cons_of_pos (by simp [hvalue, hcontinues.2])]
        rw [if_pos hcontinues]
        obtain ⟨hsubject, hdigest⟩ := @ih { s with
          digest := s.digest ++ (trim (String.ofList line)).filter isAsciiHexdigit } hs hrest
        refine ⟨hsubject, hdigest.trans ?_⟩
        dsimp only
        rw [if_pos hcontinues.1, if_pos hcontinues.1, hmore]
        simp [List.append_assoc]
      · have hover : (if s.readingDigest then wrappedLines (line :: body) else []) = [] := by
          by_cases hreading : s.readingDigest = true
          · have hnot : ¬ isWrapped (trim (String.ofList line)) = true := fun h =>
              hcontinues ⟨hreading, h⟩
            rw [if_pos hreading]
            unfold wrappedLines
            rw [List.map_cons, List.takeWhile_cons_of_neg (by simp [hnot])]
          · exact if_neg hreading
        rw [if_neg hcontinues, hover]
        exact @ih { s with readingDigest := false } hs hrest

/-- A block is a head and lines without a number. -/
theorem leafBlock_shape (text : List (List Char)) : leafBlock text = [] ∨
    ∃ head body, leafBlock text = head :: body ∧ isLeafHead head = true ∧
      ∀ line ∈ body, isNumbered line = false := by
  unfold leafBlock
  have hhead := List.head?_dropWhile_not (! isLeafHead ·) text
  cases hdrop : text.dropWhile (! isLeafHead ·) with
  | nil => exact .inl rfl
  | cons head rest =>
    rw [hdrop] at hhead
    refine .inr ⟨head, _, rfl, Bool.not_eq_false' .. ▸ hhead, fun line hline => ?_⟩
    have hnot : (! isNumbered line) = true :=
      List.mem_takeWhile_imp (p := (! isNumbered ·)) hline
    exact Bool.not_eq_true' _ ▸ hnot

theorem result_eq_ok {signature : MacosLeafSignature} (h : s.result = .ok signature) :
    s.subject = some signature.subject ∧ s.digest.length = 64 ∧
      signature.sha256 = toAsciiLowercase (String.ofList s.digest) := by
  unfold LeafScan.result at h
  cases hsubject : s.subject with
  | none =>
    rw [hsubject] at h
    cases h
  | some subject =>
    rw [hsubject] at h
    by_cases hlen : s.digest.length = 64
    · simp [demand, hlen, bind, Except.bind] at h
      subst h
      exact ⟨rfl, hlen, rfl⟩
    · simp [demand, hlen, bind, Except.bind] at h

/-- **What is returned is of the block**, and there is a fingerprint of 64
digits in it. -/
theorem sha256_of_block {output : String} {signature : MacosLeafSignature}
    (h : macosLeafSignature output = .ok signature) :
    signature.sha256 = toAsciiLowercase (String.ofList (blockDigits (leafBlock (lines output)))) ∧
      (blockDigits (leafBlock (lines output))).length = 64 := by
  unfold macosLeafSignature at h
  rw [lines_leafBlock] at h
  obtain ⟨hsubject, hlen, hsha256⟩ := result_eq_ok h
  obtain hempty | ⟨head, body, hblock, hhead, hbody⟩ := leafBlock_shape (lines output)
  · rw [hempty] at hsubject
    cases hsubject
  · obtain ⟨name, hline⟩ := line_head hhead
    have hscan : LeafScan.start.lines (leafBlock (lines output))
        = LeafScan.lines { LeafScan.start with inLeaf := true, subject := some name } body := by
      rw [hblock]
      show (match LeafScan.start.line head with
        | some s => s.lines body
        | none => LeafScan.start) = _
      rw [hline]
    have hdigest : (LeafScan.start.lines (leafBlock (lines output))).digest
        = blockDigits (leafBlock (lines output)) := by
      rw [hscan, (digest_lines rfl hbody).2, hblock]
      rfl
    rw [← hdigest]
    exact ⟨hsha256, hlen⟩

/-- **The signer is the leaf.** What two texts have in common between the first
line with the number 1 and the next that has a number decides what the code
returns for them, whatever comes before and after; and the fingerprint it
returns is made of the 64 digits of the fingerprint lines there. -/
theorem only_leaf_read :
    (∀ output output', leafBlock (lines output) = leafBlock (lines output') →
      macosLeafSignature output = macosLeafSignature output') ∧
    (∀ before head body after, (∀ line ∈ before, isLeafHead line = false) →
      isLeafHead head = true → (∀ line ∈ body, isNumbered line = false) →
      (∀ line ∈ after.head?, isNumbered line = true) →
      leafBlock (before ++ head :: (body ++ after)) = head :: body) ∧
    ∀ output signature, macosLeafSignature output = .ok signature →
      signature.sha256
        = toAsciiLowercase (String.ofList (blockDigits (leafBlock (lines output)))) ∧
      (blockDigits (leafBlock (lines output))).length = 64 := by
  refine ⟨fun output output' hblock => ?_, fun _ _ _ _ => leafBlock_eq, fun _ _ => sha256_of_block⟩
  unfold macosLeafSignature
  rw [lines_leafBlock, hblock, ← lines_leafBlock]

namespace Sample

/-- The fingerprint of a signer. -/
def signerDigest : String := String.ofList (List.replicate 64 '1')

def signedOutput : String := "1. Signer\nSHA256 Fingerprint:\n" ++ signerDigest

/-- An authority after the signer changes nothing, and the fingerprint of a
signer is that of its block. -/
theorem authority_ignored :
    macosLeafSignature "Chain:\n1. Signer\n2. Authority" = macosLeafSignature "1. Signer" ∧
    macosLeafSignature signedOutput = .ok ⟨"Signer", signerDigest⟩ ∧
    signerDigest = toAsciiLowercase (String.ofList (blockDigits (leafBlock (lines signedOutput)))) ∧
    (blockDigits (leafBlock (lines signedOutput))).length = 64 := by
  obtain ⟨hsame, hcut, hdigits⟩ := only_leaf_read
  have hchain : lines "Chain:\n1. Signer\n2. Authority"
      = ["Chain:".toList] ++ "1. Signer".toList :: ([] ++ ["2. Authority".toList]) := by decide
  have hblock : leafBlock (lines "Chain:\n1. Signer\n2. Authority") = ["1. Signer".toList] := by
    rw [hchain]
    exact hcut _ _ _ _ (by decide) (by decide) (by decide) (by decide)
  have honly : ["1. Signer".toList] = leafBlock (lines "1. Signer") := by decide
  have hsigned : macosLeafSignature signedOutput = .ok ⟨"Signer", signerDigest⟩ := by decide +kernel
  exact ⟨hsame _ _ (hblock.trans honly), hsigned, hdigits _ _ hsigned⟩

end Sample

end Lariska
