import Mathlib.Data.List.Forall2

/-!
# Gathering what can be read

A collection of many parts goes on where one of them cannot be read: it keeps
what it finds, says what went wrong and remembers that it has not seen
everything. Such collections are put together part by part, and the whole is
complete if and only if each of its parts is.

What is read of a source is the truth or a failure. So where nothing has failed
it is the truth.
-/

/-- What has been found, what there is to say about it and whether that is all
there was to find. -/
structure Gathered (α : Type) where
  items : List α
  warnings : List String
  complete : Bool

namespace Gathered

variable {α ι : Type}

/-- Nothing, where there was nothing. -/
def nothing : Gathered α := ⟨[], [], true⟩

def one (item : α) : Gathered α := ⟨[item], [], true⟩

/-- Something to be said that is no failure. -/
def warned (warning : String) : Gathered α := ⟨[], [warning], true⟩

/-- Something that could not be read. -/
def failed (warning : String) : Gathered α := ⟨[], [warning], false⟩

/-- One gathering after the other. -/
def and (g g' : Gathered α) : Gathered α :=
  ⟨g.items ++ g'.items, g.warnings ++ g'.warnings, g.complete && g'.complete⟩

/-- The gatherings of some parts, one after the other. -/
def all (f : ι → Gathered α) (parts : List ι) : Gathered α :=
  parts.foldl (fun g part => g.and (f part)) nothing

variable {f : ι → Gathered α} {parts : List ι} {g g' : Gathered α} {a : α}

@[simp] theorem items_nothing : (nothing : Gathered α).items = [] := rfl
@[simp] theorem items_one : (one a).items = [a] := rfl
@[simp] theorem items_warned (warning : String) : (warned warning : Gathered α).items = [] := rfl
@[simp] theorem items_failed (warning : String) : (failed warning : Gathered α).items = [] := rfl
@[simp] theorem items_and : (g.and g').items = g.items ++ g'.items := rfl
@[simp] theorem complete_nothing : (nothing : Gathered α).complete = true := rfl
@[simp] theorem complete_one : (one a).complete = true := rfl
@[simp] theorem complete_warned (warning : String) :
    (warned warning : Gathered α).complete = true := rfl
@[simp] theorem complete_failed (warning : String) :
    (failed warning : Gathered α).complete = false := rfl
@[simp] theorem complete_and :
    (g.and g').complete = true ↔ g.complete = true ∧ g'.complete = true :=
  Bool.and_eq_true_iff

theorem foldl_and (g : Gathered α) (parts : List ι) :
    (parts.foldl (fun g part => g.and (f part)) g).items
        = g.items ++ parts.flatMap (fun part => (f part).items) ∧
      ((parts.foldl (fun g part => g.and (f part)) g).complete = true ↔
        g.complete = true ∧ ∀ part ∈ parts, (f part).complete = true) := by
  induction parts generalizing g with
  | nil => simp
  | cons part parts ih =>
    rw [List.foldl_cons, (ih _).1, (ih _).2, items_and, complete_and, List.flatMap_cons,
      List.append_assoc, List.forall_mem_cons, and_assoc]
    exact ⟨rfl, Iff.rfl⟩

/-- What is found is found in one of the parts. -/
theorem mem_all : a ∈ (all f parts).items ↔ ∃ part ∈ parts, a ∈ (f part).items := by
  unfold all
  rw [(foldl_and _ _).1, items_nothing, List.nil_append, List.mem_flatMap]

/-- **The whole is complete if and only if each part is.** -/
theorem complete_all :
    (all f parts).complete = true ↔ ∀ part ∈ parts, (f part).complete = true := by
  unfold all
  rw [(foldl_and _ _).2]
  exact and_iff_right rfl

end Gathered

/-! ## What is read of what is there -/

section Answers

variable {ε α : Type} (isFailure : ε → Prop)

/-- **An answer** is the truth or a failure. -/
def Answers (answer truth : Except ε α) : Prop :=
  answer = truth ∨ ∃ error, answer = .error error ∧ isFailure error

variable {isFailure} {answer truth : Except ε α} {answers truths : List (Except ε α)}

/-- What is not a failure is true. -/
theorem Answers.eq_of_not (h : Answers isFailure answer truth)
    (hno : ∀ error, answer = .error error → ¬ isFailure error) : answer = truth := by
  rcases h with h | ⟨error, h, hfailure⟩
  · exact h
  · exact absurd hfailure (hno error h)

theorem Answers.eq_of_ok {a : α} (h : Answers isFailure (.ok a) truth) : truth = .ok a :=
  (h.eq_of_not fun _ heq => nomatch heq).symm

/-- A list of answers none of which is a failure is the list of what is true. -/
theorem answers_eq (h : List.Forall₂ (Answers isFailure) answers truths)
    (hok : ∀ answer ∈ answers, ∃ a, answer = .ok a) : answers = truths := by
  induction h with
  | nil => rfl
  | cons hanswer _ ih =>
    obtain ⟨⟨a, rfl⟩, hrest⟩ := List.forall_mem_cons.mp hok
    rw [hanswer.eq_of_ok, ih hrest]

end Answers
