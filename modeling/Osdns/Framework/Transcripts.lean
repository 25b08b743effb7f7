import Mathlib.Data.List.Induction
import Osdns.Framework.Discipline

/-!
# Transcripts

`p.Transcript es q` says that the exchanges `es` lead from the program `p` to the program `q`: each
is the call the program makes then, with an answer.  Nothing is said about who answers or what
happens between two exchanges, so the states an exchange records need not fit together; a
transcript of a program is what one of many parties saw of a run of the whole.

What is known of all runs of a program (`Only`, `Yields`, `Follows`) holds of a transcript.
`Discipline.since` is the discipline for statements of the form "the last call of this kind came
after all calls of that kind".
-/

namespace Interaction

/-- One call, its answer, and the states before and after. -/
structure Exchange {Op : Type} (Ret : Op → Type) (σ : Type) where
  op : Op
  answer : Ret op
  before : σ
  after : σ

namespace Program

variable {Op : Type} {Ret : Op → Type} {α β σ τ : Type}

/-- The exchanges lead from one program to another. -/
inductive Transcript : Program Ret α → List (Exchange Ret σ) → Program Ret α → Prop
  | refl (p : Program Ret α) : Transcript p [] p
  | call {o : Op} {k : Ret o → Program Ret α} {answer : Ret o} {before after : σ}
      {es : List (Exchange Ret σ)} {q : Program Ret α} (h : Transcript (k answer) es q) :
      Transcript (call o k) (⟨o, answer, before, after⟩ :: es) q

namespace Transcript

variable {p q : Program Ret α} {es : List (Exchange Ret σ)}

/-- One more exchange. -/
lemma snoc {o : Op} {k : Ret o → Program Ret α} (h : p.Transcript es (.call o k)) (answer : Ret o)
    (before after : σ) : p.Transcript (es ++ [⟨o, answer, before, after⟩]) (k answer) := by
  generalize hq : Program.call o k = q at h
  induction h with
  | refl p =>
      subst hq
      exact .call (.refl _)
  | call h ih => exact .call (ih hq)

lemma done_inv {a b : α} (h : (Program.done a).Transcript es (.done b)) : es = [] ∧ b = a := by
  cases h with
  | refl => exact ⟨rfl, rfl⟩

lemma call_inv {o : Op} {k : Ret o → Program Ret α} {b : α}
    (h : (Program.call o k).Transcript es (.done b)) : ∃ (answer : Ret o) (before after : σ)
      (rest : List (Exchange Ret σ)), es = ⟨o, answer, before, after⟩ :: rest ∧
        (k answer).Transcript rest (.done b) := by
  cases h with
  | call h => exact ⟨_, _, _, _, rfl, h⟩

/-- A transcript of a sequence is one of each part. -/
lemma bind_inv {p : Program Ret α} {f : α → Program Ret β} {b : β}
    (h : (p.bind f).Transcript es (.done b)) : ∃ a first rest, es = first ++ rest ∧
      p.Transcript first (.done a) ∧ (f a).Transcript rest (.done b) := by
  induction p generalizing es with
  | done a => exact ⟨a, [], es, rfl, .refl _, h⟩
  | call o k ih =>
      obtain ⟨answer, before, after, rest, rfl, hrest⟩ := call_inv h
      obtain ⟨a, first, rest, rfl, hp, hf⟩ := ih answer hrest
      exact ⟨a, ⟨o, answer, before, after⟩ :: first, rest, rfl, .call hp, hf⟩

/-! ### What is known of the program -/

lemma only {A : (o : Op) → Ret o → Prop} {C : Op → Prop} (h : p.Transcript es q)
    (hA : ∀ e ∈ es, A e.op e.answer) (hp : p.Only A C) : ∀ e ∈ es, C e.op := by
  induction h with
  | refl p => exact fun e he => absurd he (by simp)
  | call h ih =>
      intro e he
      cases he with
      | head => exact hp.1
      | tail _ he =>
          have hanswer := hA _ (List.mem_cons_self ..)
          exact ih (fun e he => hA e (List.mem_cons_of_mem _ he)) (hp.2 _ hanswer) e he

/-- The state of a discipline after a transcript. -/
lemma follows {D : Discipline Ret τ} {Q : α → τ → Prop} {a : α} {s : τ}
    (h : p.Transcript es (.done a)) (hexp : ∀ e ∈ es, ∀ s, D.expects s e.op e.answer)
    (hp : p.Follows D Q s) : Q a (es.foldl (fun s e => D.next s e.op e.answer) s) := by
  generalize hq : Program.done a = q at h
  induction h generalizing s with
  | refl p =>
      subst hq
      exact hp
  | call h ih =>
      have hanswer := hexp _ (List.mem_cons_self ..) s
      exact ih (fun e he => hexp e (List.mem_cons_of_mem _ he)) (hp.2 _ hanswer) hq

end Transcript

end Program

/-! ## Since -/

namespace Discipline

variable {Op : Type} {Ret : Op → Type} {α σ : Type}
variable {A : (o : Op) → Ret o → Prop} {C : (o : Op) → Ret o → Prop} {T : Op → Prop}

/-- Any call may be made; the state says whether a call was answered in `C` and only calls in `T`
were made since. -/
def since (A C : (o : Op) → Ret o → Prop) (T : Op → Prop) : Discipline Ret Prop where
  allows _ _ := True
  expects _ := A
  next s o answer := C o answer ∨ (s ∧ T o)

lemma since_any {p : Program Ret α} {s : Prop} :
    p.Follows (since A C T) (fun _ _ => True) s := by
  induction p generalizing s with
  | done a => trivial
  | call o k ih => exact ⟨trivial, fun answer _ => ih answer⟩

/-- Where the state of `since` comes from. -/
lemma since_foldl {es : List (Exchange Ret σ)}
    (h : es.foldl (fun s e => (since A C T).next s e.op e.answer) False) :
    ∃ first e rest, es = first ++ e :: rest ∧ C e.op e.answer ∧ ∀ e ∈ rest, T e.op := by
  induction es using List.reverseRecOn with
  | nil => exact absurd h (by simp)
  | append_singleton es e ih =>
      rw [List.foldl_append, List.foldl_cons, List.foldl_nil] at h
      rcases h with h | ⟨h, ht⟩
      · exact ⟨es, e, [], rfl, h, by simp⟩
      · obtain ⟨first, x, rest, rfl, hx, hrest⟩ := ih h
        refine ⟨first, x, rest ++ [e], by simp, hx, fun y hy => ?_⟩
        rcases List.mem_append.mp hy with hy | hy
        · exact hrest y hy
        · obtain rfl := List.mem_singleton.mp hy
          exact ht

end Discipline

end Interaction
