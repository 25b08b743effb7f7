import Osdns.Framework.Logic

/-!
# Loops of fallible programs

A loop over a list that stops at the first error, and its rule: an invariant of the elements that
were visited, kept by interference and by the body.
-/

namespace Interaction

namespace Fallible

variable {Op : Type} {Ret : Op → Type} {ε α β σ : Type}
variable {H : Handler Ret σ} {R : Rely σ} {G : Handler Ret σ} {s : σ}

/-- How a program ends: with a value in `I` or with an error in `E`. -/
def Ends (I : α → σ → Prop) (E : ε → σ → Prop) : Except ε α → σ → Prop
  | .ok a => I a
  | .error e => E e

/-- A result that is known without a call. -/
def known (result : Except ε α) : Fallible ε Ret α := ExceptT.mk (.done result)

lemma sat_foldlM {I : List α → β → σ → Prop} {E : ε → σ → Prop} {f : β → α → Fallible ε Ret β}
    {l : List α} {b : β} (hI : ∀ visited b, Stable R (I visited b)) (hE : ∀ e, Stable R (E e))
    (hstart : I [] b s)
    (hbody : ∀ visited a rest b s, visited ++ a :: rest = l → I visited b s →
      Program.Sat H R G (f b a).run (Ends (I (visited ++ [a])) E) s) :
    Program.Sat H R G (l.foldlM f b).run (Ends (I l) E) s := by
  suffices hrest : ∀ rest visited b s, visited ++ rest = l → I visited b s →
      Program.Sat H R G (rest.foldlM f b).run (Ends (I l) E) s from hrest l [] b s rfl hstart
  intro rest
  induction rest with
  | nil =>
      intro visited b s hl hs t hst
      rw [List.append_nil] at hl
      exact hl ▸ hI visited b hst hs
  | cons a rest ih =>
      intro visited b s hl hs
      rw [List.foldlM_cons]
      refine sat_bind (hbody visited a rest b s hl hs) (fun b' t ht => ?_) fun e t ht u htu => ?_
      · exact ih (visited ++ [a]) b' t (by rw [List.append_assoc]; exact hl) ht
      · exact hE e htu ht

end Fallible

end Interaction
