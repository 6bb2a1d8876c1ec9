import Lariska.CertificateRecovery

/-!
# Renewing an identity that is still valid

A process renews its identity some time before it expires, and has it to go on
with when the renewal fails: `ensure` then returns a client that presents the
one it has. There is one exception. When the server does not accept the token,
the caller must learn of it, since it is the caller who can get another; it is
handed that error, and no client.

A failing enrollment leaves the memory of the process as it was, as far as its
bundle goes, and it ends with that one error only when the server has answered
401. `Renews` is the assertion that says so of a program.
-/

namespace Lariska.Mtls

open Prog (attempt lift)

section Renewal

variable {K : Pki} {config : Config} {S : Turn → Prop} {o : Option Bundle} {w : World}

/-! ## The statement -/

/-- A client presents nothing but a bundle which matches its key and which was
valid at a time the clock has shown. -/
def Client.Presents (K : Pki) (S : Turn → Prop) (c : Client) : Prop :=
  ∀ b ∈ c.identity, b.Sound K ∧ ∃ t, S t ∧ b.validAt K t.now = true

/-- The server answers a signing request that the token is not accepted. -/
def Unauthorized (S : Turn → Prop) : Prop :=
  ∃ t, S t ∧ ∃ route csr, (t.answer route csr).status = 401

/-- There is an identity, and it is valid all through the call. -/
def Valid (K : Pki) (S : Turn → Prop) (o : Option Bundle) : Prop :=
  ∃ b, o = some b ∧ ∀ t, S t → b.validAt K t.now = true

/-- The bundle in memory, and the turns that may still come. -/
structure Amid (S : Turn → Prop) (o : Option Bundle) (w : World) : Prop where
  bundle : w.self.bundle = o
  turns : ∀ t ∈ w.script, S t

/-- The program returns, unless it is killed, and keeps the bundle. -/
abbrev Reads {α : Type} (S : Turn → Prop) (o : Option Bundle) (m : Act α) (w : World)
    (A : α → Prop) : Prop :=
  m.Leads w (fun a w' => A a ∧ Amid S o w') (fun _ _ => False) (Amid S o)

/-- Where the program fails, the bundle is the same, and its error is that of a
token which is not accepted only if the server has said so. -/
abbrev Renews {α : Type} (S : Turn → Prop) (o : Option Bundle) (m : Act α) (w : World)
    (B : α → World → Prop) : Prop :=
  m.Leads w B (fun e w' => (e = .auth → Unauthorized S) ∧ Amid S o w') (Amid S o)

/-- Going on after a program that returns. -/
theorem Reads.then {α β : Type} {m : Act α} {f : α → Act β} {A : α → Prop}
    {B : β → World → Prop} {E : ApiError → World → Prop} {D : World → Prop} (h : Reads S o m w A)
    (hD : ∀ w', Amid S o w' → D w') (hf : ∀ a w', A a → Amid S o w' → (f a).Leads w' B E D) :
    (m >>= f).Leads w B E D :=
  Prog.leads_bind.mpr (h.mono (fun a w' ha => hf a w' ha.1 ha.2) (fun _ _ he => he.elim) hD)

/-- Going on after a program that keeps the bundle. -/
theorem Renews.then {α β : Type} {m : Act α} {f : α → Act β} {A : α → Prop}
    {B : β → World → Prop} (h : Renews S o m w (fun a w' => A a ∧ Amid S o w'))
    (hf : ∀ a w', A a → Amid S o w' → Renews S o (f a) w' B) : Renews S o (m >>= f) w B :=
  Prog.leads_bind.mpr (h.imp fun a w' ha => hf a w' ha.1 ha.2)

/-! ## Reading -/

/-- With so many turns left, none of which kills it, the program returns or
fails, and takes no more of them. -/
def Within {α : Type} (n : Nat) (m : Act α) : Prop :=
  ∀ w : World, (∀ t ∈ w.script, t.fate ≠ .killed) → n ≤ w.script.length →
    m.Leads w (fun _ w' => w'.script <:+ w.script ∧ w.script.length ≤ w'.script.length + n)
      (fun _ w' => w'.script <:+ w.script ∧ w.script.length ≤ w'.script.length + n)
      (fun _ => False)

section Within

variable {α β : Type} {m : Act α} {n k : Nat}

theorem Within.mono (h : Within n m) (hk : n ≤ k) : Within k m := fun w hw hlen =>
  (h w hw (hk.trans hlen)).mono (fun _ _ h' => ⟨h'.1, h'.2.trans (Nat.add_le_add_left hk _)⟩)
    (fun _ _ h' => ⟨h'.1, h'.2.trans (Nat.add_le_add_left hk _)⟩) fun _ hd => hd

/-- A sequence takes the turns of both parts. -/
theorem Within.bind {f : α → Act β} (h : Within n m) (hf : ∀ a, Within k (f a)) :
    Within (k + n) (m >>= f) := by
  intro w hw hlen
  refine Prog.leads_bind.mpr ((h w hw (by omega)).mono (fun a w₁ h₁ => ?_)
    (fun _ w₁ h₁ => ⟨h₁.1, by omega⟩) fun _ hd => hd)
  refine (hf a w₁ (fun t ht => hw t (h₁.1.subset ht)) (by omega)).mono
    (fun _ w₂ h₂ => ⟨h₂.1.trans h₁.1, ?_⟩) (fun _ w₂ h₂ => ⟨h₂.1.trans h₁.1, ?_⟩) fun _ hd => hd
  · have := h₂.2
    omega
  · have := h₂.2
    omega

end Within

/-! ## Every outcome of a renewal -/

end Renewal

/-! ## A renewal that fails, and one for which the token is not accepted -/

namespace Example

end Example

open Example

end Lariska.Mtls
