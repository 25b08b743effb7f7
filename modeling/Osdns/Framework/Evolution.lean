import Osdns.Framework.Program

/-!
# Programs in an evolving environment

An environment is a function of time.  A program that only asks the environment spreads its calls
over an interval of time, and each call is answered from the environment of its own moment.
`Program.Observes A env p t a t'` says that `p`, started at `t`, may stop with `a` at `t'`.

`NeverBack P env` says that `P` does not return once it is lost; this is how identities that are
never used again are stated.
-/

namespace Interaction

/-- What is lost does not come back. -/
def NeverBack {E : Type} (P : E → Prop) (env : Nat → E) : Prop :=
  ∀ i j k, i ≤ j → j ≤ k → P (env i) → ¬ P (env j) → ¬ P (env k)

/-- What holds at two moments holds in between. -/
lemma NeverBack.between {E : Type} {P : E → Prop} {env : Nat → E} (h : NeverBack P env)
    {i j k : Nat} (hij : i ≤ j) (hjk : j ≤ k) (hi : P (env i)) (hk : P (env k)) : P (env j) :=
  Classical.byContradiction fun hj => h i j k hij hjk hi hj hk

namespace Program

variable {Op E : Type} {Ret : Op → Type} {α β : Type}

/-- The program, started at `t`, may stop with the value at `t'`. -/
def Observes (A : E → (o : Op) → Ret o → Prop) (env : Nat → E) :
    Program Ret α → Nat → α → Nat → Prop
  | done a, t, b, t' => b = a ∧ t ≤ t'
  | call o k, t, b, t' => ∃ u r, t ≤ u ∧ A (env u) o r ∧ Observes A env (k r) u b t'

namespace Observes

variable {A : E → (o : Op) → Ret o → Prop} {env : Nat → E}

lemma le {p : Program Ret α} {t t' : Nat} {a : α} (h : p.Observes A env t a t') : t ≤ t' := by
  induction p generalizing t with
  | done b => exact h.2
  | call o k ih =>
      obtain ⟨u, r, hu, _, hk⟩ := h
      exact Nat.le_trans hu (ih r hk)

lemma bind {p : Program Ret α} {f : α → Program Ret β} {t t' : Nat} {b : β}
    (h : (p.bind f).Observes A env t b t') :
    ∃ a u, p.Observes A env t a u ∧ (f a).Observes A env u b t' := by
  induction p generalizing t with
  | done a => exact ⟨a, t, ⟨rfl, Nat.le_refl t⟩, h⟩
  | call o k ih =>
      obtain ⟨u, r, hu, ha, hk⟩ := h
      obtain ⟨a, v, hp, hf⟩ := ih r hk
      exact ⟨a, v, ⟨u, r, hu, ha, hp⟩, hf⟩

/-- A program whose calls are all answered at one moment. -/
lemma run {reply : (o : Op) → Ret o} {t : Nat} (h : ∀ o, A (env t) o (reply o))
    (p : Program Ret α) :
    p.Observes A env t (p.run (fun o (_ : Unit) => (reply o, ())) ()).1 t := by
  induction p with
  | done a => exact ⟨rfl, Nat.le_refl t⟩
  | call o k ih => exact ⟨t, reply o, Nat.le_refl t, h o, ih (reply o)⟩

end Observes

end Program

namespace Fallible

variable {Op E : Type} {Ret : Op → Type} {ε α β : Type}
variable {A : E → (o : Op) → Ret o → Prop} {env : Nat → E}

/-- A fallible program that succeeds has succeeded so far. -/
lemma observes_bind {p : Fallible ε Ret α} {k : α → Fallible ε Ret β} {t t' : Nat} {b : β}
    (h : (p >>= k).run.Observes A env t (.ok b) t') :
    ∃ a u, p.run.Observes A env t (.ok a) u ∧ (k a).run.Observes A env u (.ok b) t' := by
  obtain ⟨answer, u, hp, hk⟩ := Program.Observes.bind h
  cases answer with
  | ok a => exact ⟨a, u, hp, hk⟩
  | error e => cases hk.1

/-- A fallible program goes on or stops with the first error. -/
lemma observes_cases {p : Fallible ε Ret α} {k : α → Fallible ε Ret β} {t t' : Nat}
    {answer : Except ε β} (h : (p >>= k).run.Observes A env t answer t') :
    (∃ a u, p.run.Observes A env t (.ok a) u ∧ (k a).run.Observes A env u answer t') ∨
      ∃ e u, answer = .error e ∧ p.run.Observes A env t (.error e) u ∧ u ≤ t' := by
  obtain ⟨result, u, hp, hk⟩ := Program.Observes.bind h
  cases result with
  | ok a => exact .inl ⟨a, u, hp, hk⟩
  | error e => exact .inr ⟨e, u, hk.1, hp, hk.2⟩

lemma observes_value {p : Program Ret α} {k : α → Fallible ε Ret β} {t t' : Nat}
    {b : Except ε β} (h : (Fallible.value p >>= k).run.Observes A env t b t') :
    ∃ a u, p.Observes A env t a u ∧ (k a).run.Observes A env u b t' := by
  have split : ((p.bind fun a => .done (.ok a)).bind fun answer =>
      ExceptT.bindCont k answer).Observes A env t b t' := h
  rw [Program.bind_assoc] at split
  exact Program.Observes.bind split

end Fallible

end Interaction
