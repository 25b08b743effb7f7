import Osdns.Framework.Logic

/-!
# Uninterrupted runs

`Program.Runs H p s a t` says that the program `p`, started in `s` and never interfered with, may
stop with `a` in `t`.  Unlike `Sat` it speaks of one run, so that results about a program can say
exactly which outcomes are possible.

`Program.Stops H p Q s` says that every such run can go on until the program stops, and that it
stops in `Q`.
-/

namespace Interaction

namespace Program

variable {Op Op' : Type} {Ret : Op → Type} {Ret' : Op' → Type} {α β σ : Type} {H : Handler Ret σ}

/-- The program, started in a state, may stop with a value in a state. -/
def Runs (H : Handler Ret σ) : Program Ret α → σ → α → σ → Prop
  | done a, s, b, t => b = a ∧ t = s
  | call o k, s, b, t => ∃ r u, H o s r u ∧ Runs H (k r) u b t

@[simp] lemma runs_done {a b : α} {s t : σ} :
    (done a : Program Ret α).Runs H s b t ↔ b = a ∧ t = s := Iff.rfl

/-- Fewer answers. -/
lemma Runs.mono {K : Handler Ret σ} (hK : ∀ o s r t, H o s r t → K o s r t) {p : Program Ret α}
    {a : α} {s t : σ} (h : p.Runs H s a t) : p.Runs K s a t := by
  induction p generalizing s with
  | done b => exact h
  | call o k ih =>
      obtain ⟨r, u, hr, hk⟩ := h
      exact ⟨r, u, hK o s r u hr, ih r hk⟩

/-- Sequencing. -/
lemma runs_bind {p : Program Ret α} {f : α → Program Ret β} {s t : σ} {b : β} :
    (p.bind f).Runs H s b t ↔ ∃ a u, p.Runs H s a u ∧ (f a).Runs H u b t := by
  induction p generalizing s with
  | done a =>
      constructor
      · exact fun h => ⟨a, s, ⟨rfl, rfl⟩, h⟩
      · rintro ⟨_, _, ⟨rfl, rfl⟩, h⟩
        exact h
  | call o k ih =>
      constructor
      · rintro ⟨r, u, hr, h⟩
        obtain ⟨a, v, hp, hf⟩ := (ih r).mp h
        exact ⟨a, v, ⟨r, u, hr, hp⟩, hf⟩
      · rintro ⟨a, v, ⟨r, u, hr, hp⟩, hf⟩
        exact ⟨r, u, hr, (ih r).mpr ⟨a, v, hp, hf⟩⟩

/-- A lifted program runs as the program does. -/
lemma runs_lift {f : Op → Op'} {K : Handler Ret' σ} {g : ∀ o, Ret' (f o) → Ret o}
    {p : Program Ret α} {s t : σ} {a : α} : (p.lift f g).Runs K s a t ↔
      p.Runs (fun o s r t => ∃ r', K (f o) s r' t ∧ g o r' = r) s a t := by
  induction p generalizing s with
  | done b => exact Iff.rfl
  | call o k ih =>
      constructor
      · rintro ⟨r, u, hr, h⟩
        exact ⟨_, u, ⟨r, hr, rfl⟩, (ih _).mp h⟩
      · rintro ⟨_, u, ⟨r, hr, rfl⟩, h⟩
        exact ⟨r, u, hr, (ih _).mpr h⟩

/-- The run in which every call is answered by `exec`, if it can be. -/
def evaluate (exec : (o : Op) → σ → Option (Ret o × σ)) : Program Ret α → σ → Option (α × σ)
  | done a, s => some (a, s)
  | call o k, s => (exec o s).bind fun answer => (k answer.1).evaluate exec answer.2

lemma runs_of_evaluate {exec : (o : Op) → σ → Option (Ret o × σ)} {p : Program Ret α} {s : σ}
    {result : α × σ} (hexec : ∀ o s answer, exec o s = some answer → H o s answer.1 answer.2)
    (h : p.evaluate exec s = some result) : p.Runs H s result.1 result.2 := by
  induction p generalizing s with
  | done a =>
      obtain rfl := Option.some.inj h
      exact ⟨rfl, rfl⟩
  | call o k ih =>
      obtain ⟨answer, ho, hk⟩ := Option.bind_eq_some_iff.mp h
      exact ⟨answer.1, answer.2, hexec o s answer ho, ih answer.1 hk⟩

/-! ## Runs that always stop -/

/-- Every call can be answered, and every value the program stops with meets `Q`. -/
def Stops (H : Handler Ret σ) : Program Ret α → (α → σ → Prop) → σ → Prop
  | done a, Q, s => Q a s
  | call o k, Q, s => (∃ r t, H o s r t) ∧ ∀ r t, H o s r t → Stops H (k r) Q t

namespace Stops

variable {p : Program Ret α} {Q Q' : α → σ → Prop} {s : σ}

/-- Consequence. -/
lemma mono (hQ : ∀ a t, Q a t → Q' a t) (h : p.Stops H Q s) : p.Stops H Q' s := by
  induction p generalizing s with
  | done a => exact hQ a s h
  | call o k ih => exact ⟨h.1, fun r t hr => ih r (h.2 r t hr)⟩

/-- Sequencing. -/
lemma bind {f : α → Program Ret β} {M : α → σ → Prop} {Q : β → σ → Prop} (h : p.Stops H M s)
    (hf : ∀ a t, M a t → (f a).Stops H Q t) : (p.bind f).Stops H Q s := by
  induction p generalizing s with
  | done a => exact hf a s h
  | call o k ih => exact ⟨h.1, fun r t hr => ih r (h.2 r t hr)⟩

/-- A call whose answer is fixed. -/
lemma step {o : Op} {k : Ret o → Program Ret α} {r : Ret o} {t : σ} (hr : H o s r t)
    (hfixed : ∀ r' t', H o s r' t' → r' = r ∧ t' = t) (hk : (k r).Stops H Q t) :
    (call o k).Stops H Q s := by
  refine ⟨⟨r, t, hr⟩, fun r' t' h => ?_⟩
  obtain ⟨rfl, rfl⟩ := hfixed r' t' h
  exact hk

/-- There is a run. -/
lemma exists_run (h : p.Stops H Q s) : ∃ a t, p.Runs H s a t ∧ Q a t := by
  induction p generalizing s with
  | done a => exact ⟨a, s, ⟨rfl, rfl⟩, h⟩
  | call o k ih =>
      obtain ⟨⟨r, u, hr⟩, hk⟩ := h
      obtain ⟨a, t, hrun, hQ⟩ := ih r (hk r u hr)
      exact ⟨a, t, ⟨r, u, hr, hrun⟩, hQ⟩

/-- Every run ends in `Q`. -/
lemma runs {a : α} {t : σ} (h : p.Stops H Q s) (hr : p.Runs H s a t) : Q a t := by
  induction p generalizing s with
  | done b =>
      obtain ⟨rfl, rfl⟩ := hr
      exact h
  | call o k ih =>
      obtain ⟨r, u, ho, hk⟩ := hr
      exact ih r (h.2 r u ho) hk

/-- A lifted program stops as the program does. -/
lemma lift {f : Op → Op'} {K : Handler Ret' σ} {g : ∀ o, Ret' (f o) → Ret o}
    (hH : ∀ o s, (∃ r t, H o s r t) → ∃ r t, K (f o) s r t)
    (hK : ∀ o s r t, K (f o) s r t → H o s (g o r) t) (h : p.Stops H Q s) :
    (p.lift f g).Stops K Q s := by
  induction p generalizing s with
  | done a => exact h
  | call o k ih => exact ⟨hH o s h.1, fun r t hr => ih _ (h.2 _ t (hK o s r t hr))⟩

/-- Results about a part of the state carry over.  `f` reads the part off the state and `I` is an
invariant of the states; a call that can be answered from the part can be answered from the
state. -/
lemma simulate {τ : Type} {f : τ → σ} {I : τ → Prop} {K : Handler Ret τ} {s : τ}
    (hanswer : ∀ o s, I s → (∃ r t, H o (f s) r t) → ∃ r t, K o s r t)
    (hH : ∀ o s r t, I s → (∃ r t, H o (f s) r t) → K o s r t → H o (f s) r (f t) ∧ I t)
    (hs : I s) (h : p.Stops H Q (f s)) : p.Stops K (fun a t => Q a (f t) ∧ I t) s := by
  induction p generalizing s with
  | done a => exact ⟨h, hs⟩
  | call o k ih =>
      refine ⟨hanswer o s hs h.1, fun r t hr => ?_⟩
      obtain ⟨ho, ht⟩ := hH o s r t hs h.1 hr
      exact ih r ht (h.2 r (f t) ho)

/-- A program stops when the calls it makes can be answered under an assertion that they keep. -/
lemma of_sat {G : Handler Ret σ} {A : (o : Op) → Ret o → Prop} {C : Op → Prop} {P : σ → Prop}
    (hanswer : ∀ o s, C o → P s → ∃ r t, H o s r t)
    (hC : ∀ o s r t, C o → P s → H o s r t → G o s r t → A o r ∧ P t)
    (h : p.Sat H (Rely.none σ) G Q s) (hp : p.Only A C) (hs : P s) :
    p.Stops H (fun a t => Q a t ∧ P t) s := by
  induction p generalizing s with
  | done a => exact ⟨h s rfl, hs⟩
  | call o k ih =>
      refine ⟨hanswer o s hp.1 hs, fun r t hr => ?_⟩
      obtain ⟨hG, hk⟩ := h s rfl r t hr
      obtain ⟨ha, ht⟩ := hC o s r t hp.1 hs hr hG
      exact ih r hk (hp.2 r ha) ht

end Stops

end Program

namespace Fallible

variable {Op : Type} {Ret : Op → Type} {ε α β σ : Type} {H : Handler Ret σ}

lemma runs_value {p : Program Ret α} {k : α → Fallible ε Ret β} {s t : σ} {answer : Except ε β} :
    (Fallible.value p >>= k).run.Runs H s answer t ↔
      ∃ a u, p.Runs H s a u ∧ (k a).run.Runs H u answer t := by
  change Program.Runs H ((p.bind _).bind _) s answer t ↔ _
  rw [Program.bind_assoc]
  exact Program.runs_bind

/-- The run of a sequence goes on or stops with the first error. -/
lemma runs_bind {p : Fallible ε Ret α} {k : α → Fallible ε Ret β} {s t : σ}
    {answer : Except ε β} : (p >>= k).run.Runs H s answer t ↔
      (∃ a u, p.run.Runs H s (.ok a) u ∧ (k a).run.Runs H u answer t) ∨
        ∃ e, p.run.Runs H s (.error e) t ∧ answer = .error e := by
  refine Program.runs_bind.trans ⟨?_, ?_⟩
  · rintro ⟨result, u, hp, hk⟩
    cases result with
    | ok a => exact .inl ⟨a, u, hp, hk⟩
    | error e =>
        obtain ⟨rfl, rfl⟩ := hk
        exact .inr ⟨e, hp, rfl⟩
  · rintro (⟨a, u, hp, hk⟩ | ⟨e, hp, rfl⟩)
    · exact ⟨.ok a, u, hp, hk⟩
    · exact ⟨.error e, t, hp, rfl, rfl⟩

/-- Sequencing after a program that cannot fail. -/
lemma stops_value {p : Program Ret α} {k : α → Fallible ε Ret β} {M : α → σ → Prop}
    {Q : Except ε β → σ → Prop} {s : σ} (hp : p.Stops H M s)
    (hk : ∀ a t, M a t → (k a).run.Stops H Q t) : (Fallible.value p >>= k).run.Stops H Q s := by
  change Program.Stops H ((p.bind _).bind _) Q s
  rw [Program.bind_assoc]
  exact hp.bind hk

/-- Sequencing: the first error stops the program. -/
lemma stops_bind {p : Fallible ε Ret α} {k : α → Fallible ε Ret β} {M : Except ε α → σ → Prop}
    {Q : Except ε β → σ → Prop} {s : σ} (hp : p.run.Stops H M s)
    (hok : ∀ a t, M (.ok a) t → (k a).run.Stops H Q t)
    (herror : ∀ e t, M (.error e) t → Q (.error e) t) : (p >>= k).run.Stops H Q s := by
  refine Program.Stops.bind hp fun answer t h => ?_
  cases answer with
  | ok a => exact hok a t h
  | error e => exact herror e t h

end Fallible

end Interaction
