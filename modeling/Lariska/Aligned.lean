import Mathlib.Tactic

/-!
# Texts that are cut alike

Two writers put a text together piece by piece, each from what it sees, and the
texts come out the same. What they have seen is then the same too, if the
pieces can be told apart: a piece ends where the other writer's piece ends,
whatever follows, and being the same they say the same. `Aligned` is that of
two pieces, with what they say, and it is put together as the pieces are: the
second piece may be chosen by what the first one said, so two walks that ask
their next question by the answers so far stay in step.

Nothing is said about what the texts are made of.
-/

/-- **Two pieces are cut alike**, and `Q` holds, whenever the texts they begin
are the same. -/
def Aligned {β : Type} (xs ys : List β) (Q : Prop) : Prop :=
  ∀ rest rest', xs ++ rest = ys ++ rest' → rest = rest' ∧ Q

namespace Aligned

variable {α β : Type} {xs ys xs' ys' : List β} {Q Q' : Prop}

/-- What two whole texts say that are the same. -/
theorem of_eq (h : Aligned xs ys Q) (heq : xs = ys) : Q :=
  (h [] [] (by rw [List.append_nil, List.append_nil, heq])).2

theorem mono (h : Aligned xs ys Q) (hQ : Q → Q') : Aligned xs ys Q' := fun rest rest' heq =>
  ⟨(h rest rest' heq).1, hQ (h rest rest' heq).2⟩

theorem nil : Aligned ([] : List β) [] True := fun _ _ heq => ⟨heq, trivial⟩

/-- Pieces of one length are cut alike. -/
theorem of_length (h : xs.length = ys.length) (hQ : xs = ys → Q) : Aligned xs ys Q :=
  fun _ _ heq => ⟨(List.append_inj heq h).2, hQ (List.append_inj heq h).1⟩

/-- **One piece after the other**, the second being cut alike once it is known
what the first says. -/
theorem append (h : Aligned xs ys Q) (h' : Q → Aligned xs' ys' Q') :
    Aligned (xs ++ xs') (ys ++ ys') (Q ∧ Q') := by
  intro rest rest' heq
  rw [List.append_assoc, List.append_assoc] at heq
  obtain ⟨hrest, hQ⟩ := h _ _ heq
  obtain ⟨hrest', hQ'⟩ := h' hQ _ _ hrest
  exact ⟨hrest', hQ, hQ'⟩

/-- As many pieces of two writers as there are questions. -/
theorem flatMap {f g : α → List β} {Q : α → Prop} {l : List α}
    (h : ∀ x ∈ l, Aligned (f x) (g x) (Q x)) :
    Aligned (l.flatMap f) (l.flatMap g) (∀ x ∈ l, Q x) := by
  induction l with
  | nil => exact nil.mono fun _ _ hx => (List.not_mem_nil hx).elim
  | cons x l ih =>
    rw [List.flatMap_cons, List.flatMap_cons]
    have hrest := ih fun y hy => h y (List.mem_cons_of_mem _ hy)
    refine ((h x List.mem_cons_self).append fun _ => hrest).mono fun ⟨hx, hl⟩ => ?_
    exact List.forall_mem_cons.mpr ⟨hx, hl⟩

/-- **A code whose words are cut alike reads back**: from the words of a list,
one after the other and none of them empty, the list. -/
theorem flatMap_inj {encode : α → List β} {P : α → Prop}
    (h : ∀ a b, P a → P b → Aligned (encode a) (encode b) (a = b))
    (hne : ∀ a, encode a ≠ []) {l l' : List α} (hl : ∀ a ∈ l, P a) (hl' : ∀ a ∈ l', P a)
    (heq : l.flatMap encode = l'.flatMap encode) : l = l' := by
  induction l generalizing l' with
  | nil =>
    cases l' with
    | nil => rfl
    | cons b l' =>
      rw [List.flatMap_cons, List.flatMap_nil] at heq
      exact absurd (List.append_eq_nil_iff.mp heq.symm).1 (hne b)
  | cons a l ih =>
    cases l' with
    | nil =>
      rw [List.flatMap_cons, List.flatMap_nil] at heq
      exact absurd (List.append_eq_nil_iff.mp heq).1 (hne a)
    | cons b l' =>
      rw [List.flatMap_cons, List.flatMap_cons] at heq
      obtain ⟨hrest, hab⟩ := h a b (hl a List.mem_cons_self) (hl' b List.mem_cons_self) _ _ heq
      rw [hab, ih (fun c hc => hl c (List.mem_cons_of_mem _ hc))
        (fun c hc => hl' c (List.mem_cons_of_mem _ hc)) hrest]

end Aligned

/-! ## Numbers of a fixed width -/

/-- The bytes of a number, the least significant first. -/
def littleEndian (width n : Nat) : List UInt8 :=
  (List.range width).map fun i => UInt8.ofNat (n / 256 ^ i)

@[simp] theorem length_littleEndian (width n : Nat) : (littleEndian width n).length = width := by
  unfold littleEndian
  rw [List.length_map, List.length_range]

theorem littleEndian_succ (width n : Nat) :
    littleEndian (width + 1) n = UInt8.ofNat n :: littleEndian width (n / 256) := by
  unfold littleEndian
  rw [List.range_succ_eq_map, List.map_cons, List.map_map]
  congr 1
  · rw [pow_zero, Nat.div_one]
  · refine List.map_congr_left fun i _ => ?_
    show UInt8.ofNat (n / 256 ^ (i + 1)) = _
    rw [pow_succ', Nat.div_div_eq_div_mul]

/-- A number that fits its width is told by its bytes. -/
theorem littleEndian_inj {width n m : Nat} (hn : n < 256 ^ width) (hm : m < 256 ^ width)
    (h : littleEndian width n = littleEndian width m) : n = m := by
  induction width generalizing n m with
  | zero =>
    rw [pow_zero, Nat.lt_one_iff] at hn hm
    rw [hn, hm]
  | succ width ih =>
    rw [littleEndian_succ, littleEndian_succ] at h
    obtain ⟨hlow, hhigh⟩ := List.cons.inj h
    have hlow : n % 256 = m % 256 := congrArg UInt8.toNat hlow
    have hhigh : n / 256 = m / 256 := by
      rw [pow_succ] at hn hm
      exact ih (Nat.div_lt_of_lt_mul (by rwa [mul_comm])) (Nat.div_lt_of_lt_mul (by rwa [mul_comm]))
        hhigh
    rw [← Nat.div_add_mod n 256, ← Nat.div_add_mod m 256, hlow, hhigh]

theorem aligned_littleEndian {width n m : Nat} (hn : n < 256 ^ width) (hm : m < 256 ^ width) :
    Aligned (littleEndian width n) (littleEndian width m) (n = m) :=
  .of_length (by simp) (littleEndian_inj hn hm)
