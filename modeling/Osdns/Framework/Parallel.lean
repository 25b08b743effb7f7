import Mathlib.Logic.Function.Basic
import Mathlib.Logic.Relation
import Osdns.Framework.Logic

/-!
# Programs side by side

A pool of programs that share a state makes one call of one program at a time.  When what each of
them guarantees is what the others rely on, every program in the pool does what it does alone
(`Pool.sat`), in every order of the calls.
-/

namespace Interaction

variable {ι Op σ : Type} {Ret : Op → Type} {α : ι → Type}

/-- Programs and the state they share. -/
structure Pool (Ret : Op → Type) (α : ι → Type) (σ : Type) where
  program : ∀ i, Program Ret (α i)
  state : σ

namespace Pool

variable {H : Handler Ret σ} {R : ι → Rely σ} {G : ι → Handler Ret σ}
  {Q : ∀ i, α i → σ → Prop} {pool pool' : Pool Ret α σ}

/-- Every program of the pool does what it does alone. -/
def Sat (H : Handler Ret σ) (R : ι → Rely σ) (G : ι → Handler Ret σ) (Q : ∀ i, α i → σ → Prop)
    (pool : Pool Ret α σ) : Prop :=
  ∀ i, (pool.program i).Sat H (R i) (G i) (Q i) pool.state

/-- What a program of the pool stops with. -/
lemma Sat.stopped (h : pool.Sat H R G Q) {i : ι} {a : α i} (hi : pool.program i = .done a) :
    Q i a pool.state := by
  have hdone := h i
  rw [hi] at hdone
  exact hdone _ ((R i).refl _)

variable [DecidableEq ι]

/-- One call of one program. -/
inductive Step (H : Handler Ret σ) (pool : Pool Ret α σ) : Pool Ret α σ → Prop
  | mk {i : ι} {q : Program Ret (α i)} {t : σ}
      (h : Program.Step H (pool.program i) pool.state q t) :
      Step H pool ⟨Function.update pool.program i q, t⟩

lemma Sat.step (hRG : ∀ i j, i ≠ j → ∀ o s r t, H o s r t → G i o s r t → (R j).rel s t)
    (h : pool.Sat H R G Q) (hstep : Step H pool pool') : pool'.Sat H R G Q := by
  cases hstep with
  | @mk i q t hq =>
      intro j
      by_cases hij : j = i
      · subst hij
        show Program.Sat H (R j) (G j) (Function.update pool.program j q j) (Q j) t
        rw [Function.update_self]
        exact (h j).step hq
      · show Program.Sat H (R j) (G j) (Function.update pool.program i q j) (Q j) t
        rw [Function.update_of_ne hij]
        exact (h j).rely ((h i).step_guarantee (hRG i j (Ne.symm hij)) hq)

/-- In every order of the calls. -/
theorem Sat.run (hRG : ∀ i j, i ≠ j → ∀ o s r t, H o s r t → G i o s r t → (R j).rel s t)
    (h : pool.Sat H R G Q) (hrun : Relation.ReflTransGen (Step H) pool pool') :
    pool'.Sat H R G Q := by
  induction hrun with
  | refl => exact h
  | tail _ hstep ih => exact ih.step hRG hstep

end Pool

end Interaction
