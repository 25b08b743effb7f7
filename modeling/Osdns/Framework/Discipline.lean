import Osdns.Framework.Logic

/-!
# Programs that keep to a discipline

A `Discipline` is an automaton over calls: in each of its states some calls are allowed, and an
answered call moves it on.  `Program.Follows D p Q s` says that the program `p`, started in the
state `s` of the discipline, makes allowed calls only and stops in a state that meets `Q`,
whatever the answers are within what the discipline expects.

The state of a discipline is not the state of any machine.  It is what a party knows about itself:
which locks it holds, how many references it counts.  A result about many parties then needs one
fact for each program, that it follows the discipline, and an invariant that ties the states of
all disciplines to the shared state.
-/

namespace Interaction

/-- What a party may call in each state, and how answers move it on. -/
structure Discipline {Op : Type} (Ret : Op → Type) (σ : Type) where
  /-- The calls that may be made. -/
  allows : σ → Op → Prop
  /-- The answers that may come. -/
  expects : σ → (o : Op) → Ret o → Prop
  next : σ → (o : Op) → Ret o → σ

namespace Program

variable {Op Op' : Type} {Ret : Op → Type} {Ret' : Op' → Type} {α β σ : Type}
variable {D : Discipline Ret σ}

/-- Every call is allowed where it is made, and the program stops in `Q`. -/
def Follows (D : Discipline Ret σ) : Program Ret α → (α → σ → Prop) → σ → Prop
  | done a, Q, s => Q a s
  | call o k, Q, s => D.allows s o ∧ ∀ r, D.expects s o r → Follows D (k r) Q (D.next s o r)

namespace Follows

/-- Consequence. -/
lemma mono {p : Program Ret α} {Q Q' : α → σ → Prop} {s : σ} (hQ : ∀ a t, Q a t → Q' a t)
    (h : p.Follows D Q s) : p.Follows D Q' s := by
  induction p generalizing s with
  | done a => exact hQ a s h
  | call o k ih => exact ⟨h.1, fun r hr => ih r (h.2 r hr)⟩

/-- Sequencing. -/
lemma bind {p : Program Ret α} {f : α → Program Ret β} {M : α → σ → Prop} {Q : β → σ → Prop}
    {s : σ} (h : p.Follows D M s) (hf : ∀ a t, M a t → (f a).Follows D Q t) :
    (p.bind f).Follows D Q s := by
  induction p generalizing s with
  | done a => exact hf a s h
  | call o k ih => exact ⟨h.1, fun r hr => ih r (h.2 r hr)⟩

/-- A program whose calls do not move the discipline leaves it where it was. -/
lemma idle {A : (o : Op) → Ret o → Prop} {C : Op → Prop} {p : Program Ret α} {s : σ}
    (hC : ∀ o, C o → D.allows s o ∧ ∀ r, D.expects s o r → A o r ∧ D.next s o r = s)
    (hp : p.Only A C) : p.Follows D (fun _ t => t = s) s := by
  induction p with
  | done a => rfl
  | call o k ih =>
      refine ⟨(hC o hp.1).1, fun r hr => ?_⟩
      obtain ⟨ha, hs⟩ := (hC o hp.1).2 r hr
      rw [hs]
      exact ih r (hp.2 r ha)

/-- What a program answers holds besides. -/
lemma yields {A : (o : Op) → Ret o → Prop} {φ : α → Prop} {p : Program Ret α} {Q : α → σ → Prop}
    {s : σ} (hA : ∀ s o r, D.expects s o r → A o r) (h : p.Follows D Q s) (hp : p.Yields A φ) :
    p.Follows D (fun a t => Q a t ∧ φ a) s := by
  induction p generalizing s with
  | done a => exact ⟨h, hp⟩
  | call o k ih => exact ⟨h.1, fun r hr => ih r (h.2 r hr) (hp r (hA s o r hr))⟩

/-- A lifted program follows a discipline that agrees on the calls of the program. -/
lemma lift {f : Op → Op'} {g : ∀ o, Ret' (f o) → Ret o} {E : Discipline Ret' σ}
    {p : Program Ret α} {Q : α → σ → Prop} {s : σ}
    (hE : ∀ s o, D.allows s o → E.allows s (f o) ∧
      ∀ r, E.expects s (f o) r → D.expects s o (g o r) ∧ E.next s (f o) r = D.next s o (g o r))
    (h : p.Follows D Q s) : (p.lift f g).Follows E Q s := by
  induction p generalizing s with
  | done a => exact h
  | call o k ih =>
      refine ⟨(hE s o h.1).1, fun r hr => ?_⟩
      obtain ⟨ha, hs⟩ := (hE s o h.1).2 r hr
      rw [hs]
      exact ih _ (h.2 _ ha)

end Follows

/-- The program follows the discipline from every state, comes back to the state it was started in
and stops with a value in `φ`. -/
def Keeps (D : Discipline Ret σ) (φ : α → Prop) (p : Program Ret α) : Prop :=
  ∀ s, p.Follows D (fun a t => t = s ∧ φ a) s

namespace Keeps

variable {φ : α → Prop} {ψ : β → Prop}

lemma done {a : α} (h : φ a) : (Program.done a : Program Ret α).Keeps D φ :=
  fun _ => ⟨rfl, h⟩

/-- One call that is always allowed and leaves the state alone. -/
lemma call {o : Op} {k : Ret o → Program Ret α}
    (ho : ∀ s, D.allows s o ∧ ∀ r, D.expects s o r → D.next s o r = s ∧ (k r).Keeps D φ) :
    (Program.call o k).Keeps D φ := by
  refine fun s => ⟨(ho s).1, fun r hr => ?_⟩
  obtain ⟨hs, hk⟩ := (ho s).2 r hr
  rw [hs]
  exact hk s

lemma mono {φ' : α → Prop} {p : Program Ret α} (hφ : ∀ a, φ a → φ' a) (h : p.Keeps D φ) :
    p.Keeps D φ' :=
  fun s => (h s).mono fun a _ ha => ⟨ha.1, hφ a ha.2⟩

lemma bind {p : Program Ret α} {f : α → Program Ret β} (hp : p.Keeps D φ)
    (hf : ∀ a, φ a → (f a).Keeps D ψ) : (p.bind f).Keeps D ψ := by
  refine fun s => (hp s).bind fun a t h => ?_
  obtain ⟨rfl, ha⟩ := h
  exact hf a ha t

end Keeps

/-- The calls of a lifted program are those of the program. -/
lemma Only.lift {f : Op → Op'} {g : ∀ o, Ret' (f o) → Ret o} {A : (o : Op) → Ret o → Prop}
    {C : Op → Prop} {A' : (o : Op') → Ret' o → Prop} {C' : Op' → Prop} {p : Program Ret α}
    (hC : ∀ o, C o → C' (f o)) (hA : ∀ o r, A' (f o) r → A o (g o r)) (hp : p.Only A C) :
    (p.lift f g).Only A' C' := by
  induction p with
  | done a => trivial
  | call o k ih => exact ⟨hC o hp.1, fun r hr => ih _ (hp.2 _ (hA o r hr))⟩

/-- A lifted program answers what the program answers. -/
lemma Yields.lift {f : Op → Op'} {g : ∀ o, Ret' (f o) → Ret o} {A : (o : Op) → Ret o → Prop}
    {A' : (o : Op') → Ret' o → Prop} {φ : α → Prop} {p : Program Ret α}
    (hA : ∀ o r, A' (f o) r → A o (g o r)) (hp : p.Yields A φ) : (p.lift f g).Yields A' φ := by
  induction p with
  | done a => exact hp
  | call o k ih => exact fun r hr => ih _ (hp _ (hA o r hr))

/-- Every program makes some calls. -/
lemma Only.any {p : Program Ret α} {A : (o : Op) → Ret o → Prop} : p.Only A fun _ => True := by
  induction p with
  | done a => trivial
  | call o k ih => exact ⟨trivial, fun r _ => ih r⟩

end Program

/-! ## Fallible programs -/

namespace Fallible

variable {Op : Type} {Ret : Op → Type} {ε α β σ : Type}
variable {A : (o : Op) → Ret o → Prop} {C : Op → Prop} {D : Discipline Ret σ}

lemma only_run_value {p : Program Ret α} (hp : p.Only A C) :
    (Fallible.value p : Fallible ε Ret α).run.Only A C :=
  hp.bind fun _ => trivial

lemma only_value {p : Program Ret α} {k : α → Fallible ε Ret β} (hp : p.Only A C)
    (hk : ∀ a, (k a).run.Only A C) : (Fallible.value p >>= k).run.Only A C := by
  change Program.Only A C ((p.bind _).bind _)
  rw [Program.bind_assoc]
  exact hp.bind hk

lemma only_bind {p : Fallible ε Ret α} {k : α → Fallible ε Ret β} (hp : p.run.Only A C)
    (hk : ∀ a, (k a).run.Only A C) : (p >>= k).run.Only A C := by
  refine Program.Only.bind hp fun answer => ?_
  cases answer with
  | ok a => exact hk a
  | error e => trivial

lemma yields_value {p : Program Ret α} {k : α → Fallible ε Ret β} {ψ : α → Prop}
    {φ : Except ε β → Prop} (hp : p.Yields A ψ) (hk : ∀ a, ψ a → (k a).run.Yields A φ) :
    (Fallible.value p >>= k).run.Yields A φ := by
  change Program.Yields A _ ((p.bind _).bind _)
  rw [Program.bind_assoc]
  exact hp.bind hk

lemma yields_bind {p : Fallible ε Ret α} {k : α → Fallible ε Ret β} {ψ : α → Prop}
    {φ : Except ε β → Prop} (hp : p.run.Yields A fun answer => ∀ a, answer = .ok a → ψ a)
    (hk : ∀ a, ψ a → (k a).run.Yields A φ) (he : ∀ e, φ (.error e)) :
    (p >>= k).run.Yields A φ := by
  refine hp.bind fun answer ha => ?_
  cases answer with
  | ok a => exact hk a (ha a rfl)
  | error e => exact he e

/-- Sequencing when nothing is known of the first program. -/
lemma yields_after {p : Fallible ε Ret α} {k : α → Fallible ε Ret β} {φ : Except ε β → Prop}
    (hk : ∀ a, (k a).run.Yields A φ) (he : ∀ e, φ (.error e)) : (p >>= k).run.Yields A φ :=
  yields_bind (ψ := fun _ => True) (Program.Yields.any.mono (fun _ _ h => h) fun _ _ _ _ => trivial)
    (fun a _ => hk a) he

/-- Sequencing after a plain value of which nothing is known. -/
lemma yields_ignore {p : Program Ret α} {k : α → Fallible ε Ret β} {φ : Except ε β → Prop}
    (hk : ∀ a, (k a).run.Yields A φ) : (Fallible.value p >>= k).run.Yields A φ :=
  yields_value (ψ := fun _ => True) Program.Yields.any fun a _ => hk a

lemma follows_value {p : Program Ret α} {k : α → Fallible ε Ret β} {M : α → σ → Prop}
    {Q : Except ε β → σ → Prop} {s : σ} (hp : p.Follows D M s)
    (hk : ∀ a t, M a t → (k a).run.Follows D Q t) :
    (Fallible.value p >>= k).run.Follows D Q s := by
  change Program.Follows D ((p.bind _).bind _) Q s
  rw [Program.bind_assoc]
  exact hp.bind hk

lemma follows_bind {p : Fallible ε Ret α} {k : α → Fallible ε Ret β} {M : Except ε α → σ → Prop}
    {Q : Except ε β → σ → Prop} {s : σ} (hp : p.run.Follows D M s)
    (hok : ∀ a t, M (.ok a) t → (k a).run.Follows D Q t)
    (herror : ∀ e t, M (.error e) t → Q (.error e) t) :
    (p >>= k).run.Follows D Q s := by
  refine hp.bind fun answer t h => ?_
  cases answer with
  | ok a => exact hok a t h
  | error e => exact herror e t h

/-- What holds of the value when a program succeeds. -/
def IfOk (ψ : α → Prop) (answer : Except ε α) : Prop :=
  ∀ a, answer = .ok a → ψ a

lemma ifOk_ok {ψ : α → Prop} {a : α} (h : ψ a) : IfOk ψ (.ok a : Except ε α) := by
  rintro _ ⟨⟩
  exact h

lemma ifOk_error {ψ : α → Prop} {e : ε} : IfOk ψ (.error e : Except ε α) := nofun

section Keeps

variable {ψ : α → Prop} {φ : Except ε β → Prop}

lemma keeps_value {p : Program Ret α} {k : α → Fallible ε Ret β} (hp : p.Keeps D ψ)
    (hk : ∀ a, ψ a → (k a).run.Keeps D φ) : (Fallible.value p >>= k).run.Keeps D φ := by
  change Program.Keeps D φ ((p.bind _).bind _)
  rw [Program.bind_assoc]
  exact hp.bind hk

lemma keeps_bind {p : Fallible ε Ret α} {k : α → Fallible ε Ret β} (hp : p.run.Keeps D (IfOk ψ))
    (hk : ∀ a, ψ a → (k a).run.Keeps D φ) (herror : ∀ e, φ (.error e)) :
    (p >>= k).run.Keeps D φ := by
  refine hp.bind fun answer ha => ?_
  cases answer with
  | ok a => exact hk a (ha a rfl)
  | error e => exact .done (herror e)

end Keeps

end Fallible

end Interaction
