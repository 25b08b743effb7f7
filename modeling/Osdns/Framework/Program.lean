import Mathlib.Logic.Basic

/-!
# Programs over a signature of calls

A program is a finite tree: it either stops with a value or performs a call and goes on with
the answer.  The signature is a type `Op` of calls together with the type `Ret o` of the
answers to each call, so a program says which calls are made and in which order, and nothing
about what a call does.  Meaning is given from outside, twice:

* by a function `(o : Op) → σ → Ret o × σ` that answers every call (`Program.run`), for
  executions in which nothing is left open;
* by a relation `Handler Ret σ` (`Framework/Logic.lean`), for executions in which faults,
  crashes and other parties are open.

`Program.lift` moves a program into a larger signature.
-/

namespace Interaction

/-- Programs whose calls are `Op`, answered in `Ret`, and which stop with an `α`. -/
inductive Program {Op : Type} (Ret : Op → Type) (α : Type) : Type
  | done (a : α) : Program Ret α
  | call (o : Op) (k : Ret o → Program Ret α) : Program Ret α

namespace Program

variable {Op Op' : Type} {Ret : Op → Type} {Ret' : Op' → Type} {α β σ : Type}

/-- Sequencing: graft `f a` at every leaf `done a`. -/
protected def bind : Program Ret α → (α → Program Ret β) → Program Ret β
  | done a, f => f a
  | call o k, f => call o (fun r => (k r).bind f)

instance : Monad (Program Ret) where
  pure := done
  bind := Program.bind

@[simp] lemma pure_eq_done (a : α) : (pure a : Program Ret α) = done a := rfl

@[simp] lemma bind_eq (p : Program Ret α) (f : α → Program Ret β) : p >>= f = p.bind f := rfl

@[simp] lemma done_bind (a : α) (f : α → Program Ret β) : (done a).bind f = f a := rfl

@[simp] lemma call_bind (o : Op) (k : Ret o → Program Ret α) (f : α → Program Ret β) :
    (call o k).bind f = call o (fun r => (k r).bind f) := rfl

lemma bind_done (p : Program Ret α) : p.bind done = p := by
  induction p with
  | done a => rfl
  | call o k ih => simp only [call_bind, ih]

lemma bind_assoc {γ : Type} (p : Program Ret α) (f : α → Program Ret β)
    (g : β → Program Ret γ) : (p.bind f).bind g = p.bind (fun a => (f a).bind g) := by
  induction p with
  | done a => rfl
  | call o k ih => simp only [call_bind, ih]

instance : LawfulMonad (Program Ret) :=
  LawfulMonad.mk' _ (fun p => bind_done p) (fun _ _ => rfl) (fun p f g => bind_assoc p f g)

/-! ## A larger signature -/

/-- Renames every call along `f` and reads the answers of the larger signature back along `g`. -/
def lift (f : Op → Op') (g : ∀ o, Ret' (f o) → Ret o) : Program Ret α → Program Ret' α
  | done a => done a
  | call o k => call (f o) (fun r => (k (g o r)).lift f g)

/-! ## Executions with every answer fixed -/

/-- Runs a program against a function that answers every call. -/
def run (exec : (o : Op) → σ → Ret o × σ) : Program Ret α → σ → α × σ
  | done a, s => (a, s)
  | call o k, s => (k (exec o s).1).run exec (exec o s).2

end Program

/-! ## Fallible programs -/

/-- Programs that may stop early with an error. -/
abbrev Fallible {Op : Type} (ε : Type) (Ret : Op → Type) (α : Type) : Type :=
  ExceptT ε (Program Ret) α

namespace Fallible

variable {Op : Type} {Ret : Op → Type} {ε α β : Type}

/-- A program whose answer is a result: its error stops the caller. -/
def ask (p : Program Ret (Except ε α)) : Fallible ε Ret α := ExceptT.mk p

/-- A program whose answer is a plain value: it never stops the caller. -/
def value (p : Program Ret α) : Fallible ε Ret α := ExceptT.mk (p.bind (fun a => .done (.ok a)))

/-- The outcome of a fallible program as a value; nothing is propagated. -/
def attempt (p : Fallible ε Ret α) : Fallible ε Ret (Except ε α) :=
  value p.run

@[simp] lemma run_value (p : Program Ret α) :
    ExceptT.run (value p : Fallible ε Ret α) = p.bind (fun a => .done (.ok a)) := rfl

@[simp] lemma run_ask (p : Program Ret (Except ε α)) : ExceptT.run (ask p) = p := rfl

@[simp] lemma run_attempt (p : Fallible ε Ret α) :
    ExceptT.run (attempt p) = p.run.bind (fun r => .done (.ok r)) := rfl

end Fallible

end Interaction
