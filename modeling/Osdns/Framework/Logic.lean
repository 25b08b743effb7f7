import Osdns.Framework.Program

/-!
# A logic for programs under interference

A `Handler` says how a call may be answered and how the state may change; several answers may
be possible for one call, which is how faults enter.  Between two calls of a program the rest
of the system may change the state; a `Rely` bounds what it may do there.

`Program.Sat H R G p Q s` says of the program `p` started in the state `s` that, whatever the
handler answers and whatever the rest of the system does within `R`,

* every call the program makes meets the guarantee `G`, and
* every value it stops with meets `Q`, also after further interference.

`Sat` is a weakest precondition by recursion on the program, so its rules are the usual ones:
consequence (`Sat.mono`), sequencing (`Sat.bind`), and fewer behaviours (`Sat.weaken`).
`Sat.step` is what a scheduler needs: a program in `Sat` that makes one step is again in `Sat`,
and the step met the guarantee.
-/

namespace Interaction

/-- How calls may be answered: the call, the state before, the answer, the state after. -/
abbrev Handler {Op : Type} (Ret : Op → Type) (σ : Type) : Type :=
  (o : Op) → σ → Ret o → σ → Prop

/-- What the rest of the system may do between two calls: any number of steps, also none. -/
structure Rely (σ : Type) where
  rel : σ → σ → Prop
  refl : ∀ s, rel s s
  trans : ∀ {s t u}, rel s t → rel t u → rel s u

/-- No interference. -/
def Rely.none (σ : Type) : Rely σ where
  rel s t := t = s
  refl _ := rfl
  trans h₁ h₂ := h₂.trans h₁

/-- An assertion that interference cannot invalidate. -/
def Stable {σ : Type} (R : Rely σ) (P : σ → Prop) : Prop :=
  ∀ {s t}, R.rel s t → P s → P t

lemma Stable.and {σ : Type} {R : Rely σ} {P Q : σ → Prop} (hP : Stable R P) (hQ : Stable R Q) :
    Stable R (fun s => P s ∧ Q s) :=
  fun h hs => ⟨hP h hs.1, hQ h hs.2⟩

namespace Program

variable {Op : Type} {Ret : Op → Type} {α β σ : Type}

/-- Every call of the program meets `G` and every result meets `Q`. -/
def Sat (H : Handler Ret σ) (R : Rely σ) (G : Handler Ret σ) :
    Program Ret α → (α → σ → Prop) → σ → Prop
  | done a, Q, s => ∀ t, R.rel s t → Q a t
  | call o k, Q, s => ∀ t, R.rel s t → ∀ r u, H o t r u → G o t r u ∧ Sat H R G (k r) Q u

variable {H H' : Handler Ret σ} {R R' : Rely σ} {G G' : Handler Ret σ}

namespace Sat

lemma rely {p : Program Ret α} {Q : α → σ → Prop} {s t : σ}
    (h : p.Sat H R G Q s) (hst : R.rel s t) : p.Sat H R G Q t := by
  cases p with
  | done a => exact fun u htu => h u (R.trans hst htu)
  | call o k => exact fun u htu => h u (R.trans hst htu)

/-- Consequence. -/
lemma mono {p : Program Ret α} {Q Q' : α → σ → Prop} (hQ : ∀ a s, Q a s → Q' a s) {s : σ}
    (h : p.Sat H R G Q s) : p.Sat H R G Q' s := by
  induction p generalizing s with
  | done a => exact fun t hst => hQ a t (h t hst)
  | call o k ih =>
      intro t hst r u hu
      obtain ⟨hG, hk⟩ := h t hst r u hu
      exact ⟨hG, ih r hk⟩

/-- A stronger handler, a quieter environment and a weaker guarantee keep `Sat`. -/
lemma weaken {p : Program Ret α} {Q : α → σ → Prop} {s : σ}
    (hH : ∀ o s r t, H' o s r t → H o s r t) (hR : ∀ s t, R'.rel s t → R.rel s t)
    (hG : ∀ o s r t, H' o s r t → G o s r t → G' o s r t)
    (h : p.Sat H R G Q s) : p.Sat H' R' G' Q s := by
  induction p generalizing s with
  | done a => exact fun t hst => h t (hR s t hst)
  | call o k ih =>
      intro t hst r u hu
      obtain ⟨hg, hk⟩ := h t (hR s t hst) r u (hH o t r u hu)
      exact ⟨hG o t r u hu hg, ih r hk⟩

/-- An assertion kept by interference and by every guaranteed call holds at the end. -/
lemma frame {p : Program Ret α} {Q : α → σ → Prop} {P : σ → Prop} {s : σ}
    (hR : Stable R P) (hG : ∀ o s r t, G o s r t → P s → P t)
    (h : p.Sat H R G Q s) (hs : P s) : p.Sat H R G (fun a t => Q a t ∧ P t) s := by
  induction p generalizing s with
  | done a => exact fun t hst => ⟨h t hst, hR hst hs⟩
  | call o k ih =>
      intro t hst r u hu
      obtain ⟨hg, hk⟩ := h t hst r u hu
      exact ⟨hg, ih r hk (hG o t r u hg (hR hst hs))⟩

/-- Results about an abstraction of the state carry over.  `f` reads the abstract state off a
concrete one and `I` is an invariant of the concrete states. -/
lemma simulate {τ : Type} {f : τ → σ} {I : τ → Prop} {K : Handler Ret τ} {E : Rely τ}
    {p : Program Ret α} {Q : α → σ → Prop} {s : τ}
    (hH : ∀ o s r t, I s → K o s r t → H o (f s) r (f t) ∧ (G o (f s) r (f t) → I t))
    (hR : ∀ s t, I s → E.rel s t → R.rel (f s) (f t) ∧ I t) (hs : I s)
    (h : p.Sat H R G Q (f s)) :
    p.Sat K E (fun o s r t => G o (f s) r (f t) ∧ I s ∧ I t) (fun a t => Q a (f t) ∧ I t) s := by
  induction p generalizing s with
  | done a =>
      intro t hst
      obtain ⟨hst', ht⟩ := hR s t hs hst
      exact ⟨h _ hst', ht⟩
  | call o k ih =>
      intro t hst r u hu
      obtain ⟨hst', ht⟩ := hR s t hs hst
      obtain ⟨hu', hI⟩ := hH o t r u ht hu
      obtain ⟨hg, hk⟩ := h _ hst' r _ hu'
      exact ⟨⟨hg, ht, hI hg⟩, ih r (hI hg) hk⟩

/-- Results carry over to a larger signature. -/
lemma lift {Op' : Type} {Ret' : Op' → Type} {f : Op → Op'} {g : ∀ o, Ret' (f o) → Ret o}
    {K J : Handler Ret' σ} {p : Program Ret α} {Q : α → σ → Prop} {s : σ}
    (hH : ∀ o s r t, K (f o) s r t → H o s (g o r) t)
    (hG : ∀ o s r t, K (f o) s r t → G o s (g o r) t → J (f o) s r t)
    (h : p.Sat H R G Q s) : (p.lift f g).Sat K R J Q s := by
  induction p generalizing s with
  | done a => exact h
  | call o k ih =>
      intro t hst r u hu
      obtain ⟨hg, hk⟩ := h t hst _ u (hH o t r u hu)
      exact ⟨hG o t r u hu hg, ih _ hk⟩

/-- Stopping at once. -/
lemma done {a : α} {Q : α → σ → Prop} {P : σ → Prop} {s : σ}
    (hP : Stable R P) (hs : P s) (hQ : ∀ t, P t → Q a t) :
    (Program.done a).Sat H R G Q s :=
  fun t hst => hQ t (hP hst hs)

/-- Sequencing. -/
lemma bind {p : Program Ret α} {f : α → Program Ret β} {Q : β → σ → Prop} {s : σ}
    (h : p.Sat H R G (fun a t => (f a).Sat H R G Q t) s) : (p.bind f).Sat H R G Q s := by
  induction p generalizing s with
  | done a => exact h s (R.refl s)
  | call o k ih =>
      intro t hst r u hu
      obtain ⟨hG, hk⟩ := h t hst r u hu
      exact ⟨hG, ih r hk⟩

/-- Sequencing through an intermediate assertion. -/
lemma seq {p : Program Ret α} {f : α → Program Ret β} {M : α → σ → Prop} {Q : β → σ → Prop}
    {s : σ} (h : p.Sat H R G M s) (hf : ∀ a t, M a t → (f a).Sat H R G Q t) :
    (p.bind f).Sat H R G Q s :=
  bind (h.mono hf)

end Sat

/-! ## Programs that only make certain calls -/

/-- Every call of the program is in `C`, as long as every answer is in `A`. -/
def Only (A : (o : Op) → Ret o → Prop) (C : Op → Prop) : Program Ret α → Prop
  | done _ => True
  | call o k => C o ∧ ∀ r, A o r → Only A C (k r)

namespace Only

variable {A : (o : Op) → Ret o → Prop} {C : Op → Prop}

lemma bind {p : Program Ret α} {f : α → Program Ret β} (hp : p.Only A C)
    (hf : ∀ a, (f a).Only A C) : (p.bind f).Only A C := by
  induction p with
  | done a => exact hf a
  | call o k ih => exact ⟨hp.1, fun r hr => ih r (hp.2 r hr)⟩

lemma mono {C' : Op → Prop} {p : Program Ret α} (hC : ∀ o, C o → C' o) (hp : p.Only A C) :
    p.Only A C' := by
  induction p with
  | done a => trivial
  | call o k ih => exact ⟨hC o hp.1, fun r hr => ih r (hp.2 r hr)⟩

/-- Calls in `C` answered in `A` keep a stable assertion, so a program that only makes such
calls does. -/
lemma sat {p : Program Ret α} {P : σ → Prop} {s : σ} (hp : p.Only A C) (hP : Stable R P)
    (hC : ∀ o s r t, C o → P s → H o s r t → A o r ∧ G o s r t ∧ P t) (hs : P s) :
    p.Sat H R G (fun _ t => P t) s := by
  induction p generalizing s with
  | done a => exact fun t hst => hP hst hs
  | call o k ih =>
      intro t hst r u hu
      obtain ⟨ha, hg, ht⟩ := hC o t r u hp.1 (hP hst hs) hu
      exact ⟨hg, ih r (hp.2 r ha) ht⟩

end Only

/-! ## What a program answers -/

/-- Every value the program stops with is in `φ`, as long as every answer is in `A`. -/
def Yields (A : (o : Op) → Ret o → Prop) (φ : α → Prop) : Program Ret α → Prop
  | done a => φ a
  | call o k => ∀ r, A o r → Yields A φ (k r)

namespace Yields

variable {A : (o : Op) → Ret o → Prop} {φ : α → Prop} {ψ : β → Prop}

lemma bind {p : Program Ret α} {f : α → Program Ret β} (hp : p.Yields A φ)
    (hf : ∀ a, φ a → (f a).Yields A ψ) : (p.bind f).Yields A ψ := by
  induction p with
  | done a => exact hf a hp
  | call o k ih => exact fun r hr => ih r (hp r hr)

lemma any {p : Program Ret α} : p.Yields A fun _ => True := by
  induction p with
  | done a => trivial
  | call o k ih => exact fun r _ => ih r

/-- Sequencing when nothing is known of the first program. -/
lemma after {p : Program Ret α} {f : α → Program Ret β} (hf : ∀ a, (f a).Yields A ψ) :
    (p.bind f).Yields A ψ :=
  any.bind fun a _ => hf a

lemma mono {A' : (o : Op) → Ret o → Prop} {φ' : α → Prop} {p : Program Ret α}
    (hA : ∀ o r, A' o r → A o r) (hφ : ∀ a, φ a → φ' a) (hp : p.Yields A φ) : p.Yields A' φ' := by
  induction p with
  | done a => exact hφ a hp
  | call o k ih => exact fun r hr => ih r (hp r (hA o r hr))

end Yields

/-- Sequencing with what is known of the first program's value. -/
lemma Only.seq {A : (o : Op) → Ret o → Prop} {C : Op → Prop} {φ : α → Prop} {p : Program Ret α}
    {f : α → Program Ret β} (hp : p.Only A C) (hφ : p.Yields A φ)
    (hf : ∀ a, φ a → (f a).Only A C) : (p.bind f).Only A C := by
  induction p with
  | done a => exact hf a hφ
  | call o k ih => exact ⟨hp.1, fun r hr => ih r (hp.2 r hr) (hφ r hr)⟩

/-- What a program answers holds besides what it establishes. -/
lemma Sat.yields {A : (o : Op) → Ret o → Prop} {φ : α → Prop} {p : Program Ret α}
    {Q : α → σ → Prop} {s : σ} (h : p.Sat H R G Q s) (hA : ∀ o s r t, H o s r t → A o r)
    (hp : p.Yields A φ) : p.Sat H R G (fun a t => Q a t ∧ φ a) s := by
  induction p generalizing s with
  | done a => exact fun t hst => ⟨h t hst, hp⟩
  | call o k ih =>
      intro t hst r u hu
      obtain ⟨hg, hk⟩ := h t hst r u hu
      exact ⟨hg, ih r hk (hp r (hA o t r u hu))⟩

/-! ## Steps of a program -/

/-- One call of a program, answered by the handler. -/
inductive Step (H : Handler Ret σ) : Program Ret α → σ → Program Ret α → σ → Prop
  | mk {o : Op} {k : Ret o → Program Ret α} {s : σ} {r : Ret o} {t : σ} (h : H o s r t) :
      Step H (call o k) s (k r) t

/-- A step of a program in `Sat` leaves the rest of it in `Sat`. -/
lemma Sat.step {p q : Program Ret α} {Q : α → σ → Prop} {s t : σ}
    (h : p.Sat H R G Q s) (hst : Step H p s q t) : q.Sat H R G Q t := by
  cases hst with
  | mk hr => exact (h s (R.refl s) _ _ hr).2

/-- A step of a program in `Sat` meets the guarantee. -/
lemma Sat.step_guarantee {p q : Program Ret α} {Q : α → σ → Prop} {s t : σ}
    {P : σ → σ → Prop} (hP : ∀ o s r t, H o s r t → G o s r t → P s t)
    (h : p.Sat H R G Q s) (hst : Step H p s q t) : P s t := by
  cases hst with
  | mk hr => exact hP _ _ _ _ hr (h s (R.refl s) _ _ hr).1

/-! ## Fixed answers -/

end Program

/-! ## Fallible programs -/

namespace Fallible

variable {Op : Type} {Ret : Op → Type} {ε α β σ : Type}
variable {H : Handler Ret σ} {R : Rely σ} {G : Handler Ret σ} {Q : Except ε β → σ → Prop} {s : σ}

/-- Sequencing after a program that cannot fail. -/
lemma sat_value {p : Program Ret α} {k : α → Fallible ε Ret β} {M : α → σ → Prop}
    (hp : p.Sat H R G M s) (hk : ∀ a t, M a t → Program.Sat H R G (k a).run Q t) :
    Program.Sat H R G (Fallible.value p >>= k).run Q s := by
  change Program.Sat H R G ((p.bind _).bind _) Q s
  rw [Program.bind_assoc]
  exact Program.Sat.seq hp hk

/-- Sequencing after a program whose outcome is looked at. -/
lemma sat_attempt {p : Fallible ε Ret α} {k : Except ε α → Fallible ε Ret β}
    {M : Except ε α → σ → Prop} (hp : Program.Sat H R G p.run M s)
    (hk : ∀ a t, M a t → Program.Sat H R G (k a).run Q t) :
    Program.Sat H R G (Fallible.attempt p >>= k).run Q s :=
  sat_value hp hk

/-- Sequencing: the first error stops the program. -/
lemma sat_bind {p : Fallible ε Ret α} {k : α → Fallible ε Ret β} {M : Except ε α → σ → Prop}
    (hp : Program.Sat H R G p.run M s)
    (hok : ∀ a t, M (.ok a) t → Program.Sat H R G (k a).run Q t)
    (herror : ∀ e t, M (.error e) t → Program.Sat H R G (.done (.error e)) Q t) :
    Program.Sat H R G (p >>= k).run Q s := by
  refine Program.Sat.seq hp fun r t h => ?_
  cases r with
  | ok a => exact hok a t h
  | error e => exact herror e t h

end Fallible

end Interaction
