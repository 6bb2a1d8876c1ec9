import Lariska.Inventory
import Mathlib.Data.List.Lex
import Mathlib.Data.String.Basic
import Mathlib.Data.Sum.Order

/-!
# The order of versions

Two version strings are compared the way a human reads them: runs of digits
as numbers, everything else as text, a number above a text in the same place,
and the separators between the runs left out. Different strings may compare
equal – `1.08` and `1.8` – so the order is a linear one not of versions but of
what is read of them.
-/

namespace Lariska

inductive Chunk where
  | number (n : Nat)
  | text (s : String)
deriving DecidableEq

def isAsciiDigit (c : Char) : Bool := '0' ≤ c && c ≤ '9'

inductive CharClass where
  | digit | other | separator
deriving DecidableEq

/-- What a character of a version belongs to: a run of digits, a run of other
alphanumeric characters, or the separators between runs. -/
def charClass (L : Libraries) (c : Char) : CharClass :=
  if isAsciiDigit c then .digit else if L.isAlphanumeric c then .other else .separator

def digitsValue (digits : List Char) : Nat :=
  digits.foldl (fun n c => 10 * n + (c.toNat - '0'.toNat)) 0

/-- A run of one class as a chunk. A number too long for `u128` stays text. -/
def chunkOf (L : Libraries) : List Char → Option Chunk
  | [] => none
  | head@(first :: _) =>
    match charClass L first with
    | .digit =>
      if digitsValue head < 2 ^ 128 then some (.number (digitsValue head))
      else some (.text (String.ofList head))
    | .other => some (.text (toAsciiLowercase (String.ofList head)))
    | .separator => none

/-- `version_chunks`. -/
def versionChunks (L : Libraries) (value : String) : List Chunk :=
  ((trim value).splitBy fun a b => charClass L a = charClass L b).filterMap (chunkOf L)

def Chunk.cmp : Chunk → Chunk → Ordering
  | .number x, .number y => compare x y
  | .text x, .text y => compare x y
  | .number _, .text _ => .gt
  | .text _, .number _ => .lt

/-- The loop of `compare_versions`. -/
def compareChunks : List Chunk → List Chunk → Ordering
  | [], [] => .eq
  | [], _ :: _ => .lt
  | _ :: _, [] => .gt
  | a :: left, b :: right => (a.cmp b).then (compareChunks left right)

/-- `compare_versions`. -/
def compareVersions (L : Libraries) : Option String → Option String → Ordering
  | none, none => .eq
  | none, some _ => .lt
  | some _, none => .gt
  | some left, some right => compareChunks (versionChunks L left) (versionChunks L right)

/-! ## What is read of a version -/

/-- A chunk in the order of chunks: texts below numbers. -/
def Chunk.rank : Chunk → String ⊕ₗ ℕ
  | .number n => toLex (.inr n)
  | .text s => toLex (.inl s)

/-- A version in the order of versions: none below any. -/
def versionRank (L : Libraries) : Option String → WithBot (List (String ⊕ₗ ℕ))
  | none => ⊥
  | some version => ((versionChunks L version).map Chunk.rank : List (String ⊕ₗ ℕ))

theorem compare_compares {α : Type} [LinearOrder α] (x y : α) : (compare x y).Compares x y := by
  cases h : compare x y with
  | lt => exact compare_lt_iff_lt.mp h
  | eq => exact compare_eq_iff_eq.mp h
  | gt => exact compare_gt_iff_gt.mp h

theorem compares_of_strictMono {α β : Type} [Preorder α] [Preorder β] {f : α → β}
    (hf : StrictMono f) {o : Ordering} {x y : α} (h : o.Compares x y) :
    o.Compares (f x) (f y) := by
  cases o with
  | lt => exact hf h
  | eq => exact congrArg f h
  | gt => exact hf h

theorem Chunk.cmp_compares (a b : Chunk) : (a.cmp b).Compares a.rank b.rank := by
  cases a with
  | number x =>
    cases b with
    | number y => exact compares_of_strictMono Sum.Lex.inr_strictMono (compare_compares x y)
    | text t => exact Sum.Lex.inl_lt_inr t x
  | text s =>
    cases b with
    | number y => exact Sum.Lex.inl_lt_inr s y
    | text t => exact compares_of_strictMono Sum.Lex.inl_strictMono (compare_compares s t)

theorem compareChunks_compares (left right : List Chunk) :
    (compareChunks left right).Compares (left.map Chunk.rank) (right.map Chunk.rank) := by
  induction left generalizing right with
  | nil =>
    cases right with
    | nil => rfl
    | cons b right => exact List.Lex.nil
  | cons a left ih =>
    cases right with
    | nil => exact List.Lex.nil
    | cons b right =>
      have hab := a.cmp_compares b
      have hrest := ih right
      rw [List.map_cons, List.map_cons, compareChunks]
      cases h : a.cmp b with
      | lt =>
        rw [h] at hab
        exact List.Lex.rel hab
      | gt =>
        rw [h] at hab
        exact List.Lex.rel hab
      | eq =>
        rw [h] at hab
        rw [show a.rank = b.rank from hab, Ordering.eq_then]
        exact compares_of_strictMono (fun _ _ hlt => List.Lex.cons hlt) hrest

/-- **Comparing versions is comparing what is read of them.** -/
theorem compareVersions_compares (L : Libraries) (left right : Option String) :
    (compareVersions L left right).Compares (versionRank L left) (versionRank L right) := by
  cases left with
  | none =>
    cases right with
    | none => rfl
    | some right => exact WithBot.bot_lt_coe _
  | some left =>
    cases right with
    | none => exact WithBot.bot_lt_coe _
    | some right =>
      exact compares_of_strictMono WithBot.coe_strictMono (compareChunks_compares _ _)

theorem compareVersions_eq_iff {L : Libraries} {left right : Option String} :
    compareVersions L left right = .eq ↔ versionRank L left = versionRank L right :=
  (compareVersions_compares L left right).eq_eq

end Lariska
