import Osdns.System.Handles

/-!
# Who works for which lease

At any moment at most one party works for a lease: its idle handle, or one session.  `Keyed` says
so, together with the facts about handles that operations rely on.
-/

namespace Osdns

open Interaction

variable {S : Setup} {s t : System}

/-- An entry of an updated table is the new one or was there before. -/
lemma update_eq_some {α : Type} {f : Nat → Option α} {x : Option α} {i j : Nat} {a : α}
    (h : Function.update f i x j = some a) : (j = i ∧ x = some a) ∨ (j ≠ i ∧ f j = some a) := by
  by_cases hne : j = i
  · subst hne
    exact .inl ⟨rfl, by simpa using h⟩
  · exact .inr ⟨hne, by rwa [Function.update_of_ne hne] at h⟩

/-- Calls are answered as handles need it. -/
lemma World.handler_answers {F : Faults} {i : SessionId} {m : ManagerId}
    {o : ManagerOp FakeSnapshotData FakeIdentity}
    {answer : ManagerRet FakeSnapshotData FakeIdentity o} {w w' : World}
    (h : World.handler F i m o w answer w') : HandleAnswers i o answer := by
  obtain ⟨fate, -, h⟩ := h
  cases o with
  | engine o =>
      cases o with
      | newLeaseId =>
          cases fate <;> simp only [World.exec, ManagerOp.target, EngineOp.target,
            World.execGlobal, Option.some.injEq, Prod.mk.injEq] at h <;> exact h.1.symm
      | _ => trivial
  | resolveResources scope plan =>
      intro resources ha
      subst ha
      cases fate with
      | proceed =>
          simp only [World.exec, ManagerOp.target, World.execGlobal, Option.some.injEq,
            Prod.mk.injEq] at h
          exact w.topology.nodup scope plan resources h.1
      | fail message => simp [World.exec, ManagerOp.target, World.execGlobal] at h
      | failAfter message => simp [World.exec, ManagerOp.target, World.execGlobal] at h
  | _ => trivial

/-- Every lease is idle or worked on by one session, and its handle is well formed. -/
structure System.Keyed (s : System) : Prop where
  started : ∀ i session, s.sessions i = some session → i < s.next ∧ session.key i < s.next
  idle : ∀ K entry, s.leases K = some entry → K < s.next ∧ entry.2.Of K
  handle : ∀ i session lease, s.sessions i = some session → session.handle = some lease → lease.Wf
  taken : ∀ i session, s.sessions i = some session → s.leases (session.key i) = none
  distinct : ∀ i j a b, s.sessions i = some a → s.sessions j = some b → a.key i = b.key j → i = j
  hands : ∀ i session, s.sessions i = some session →
    session.program.Yields (HandleAnswers i) (Outcome.Hands (session.key i))

namespace System.Keyed

lemma init (h : Initial s) : s.Keyed :=
  ⟨fun i _ hi => absurd hi (by simp [h.sessions i]), fun K _ hK => absurd hK (by simp [h.leases K]),
    fun i _ _ hi => absurd hi (by simp [h.sessions i]), fun i _ hi => absurd hi (by simp [h.sessions i]),
    fun i _ _ _ hi => absurd hi (by simp [h.sessions i]),
    fun i _ hi => absurd hi (by simp [h.sessions i])⟩

/-- A new session for a key nobody works on. -/
lemma spawn {session : Session} (h : s.Keyed) (hkey : session.key s.next ≤ s.next)
    (hfree : s.leases (session.key s.next) = none)
    (hnew : ∀ i a, s.sessions i = some a → a.key i ≠ session.key s.next)
    (hwf : ∀ lease, session.handle = some lease → lease.Wf)
    (hands : session.program.Yields (HandleAnswers s.next)
      (Outcome.Hands (session.key s.next))) :
    (s.spawn session).Keyed := by
  have hcases : ∀ i a, (s.spawn session).sessions i = some a →
      (i = s.next ∧ session = a) ∨ (i ≠ s.next ∧ s.sessions i = some a) := fun i a hi =>
    (update_eq_some hi).imp (And.imp_right Option.some.inj) id
  refine ⟨fun i a hi => ?_, fun K entry hK => ?_, fun i a lease hi => ?_, fun i a hi => ?_,
    fun i j a b hi hj hab => ?_, fun i a hi => ?_⟩
  · rcases hcases i a hi with ⟨rfl, rfl⟩ | ⟨-, hi⟩
    · exact ⟨Nat.lt_succ_self _, Nat.lt_succ_of_le hkey⟩
    · exact ⟨Nat.lt_succ_of_lt (h.started i a hi).1, Nat.lt_succ_of_lt (h.started i a hi).2⟩
  · exact ⟨Nat.lt_succ_of_lt (h.idle K entry hK).1, (h.idle K entry hK).2⟩
  · rcases hcases i a hi with ⟨rfl, rfl⟩ | ⟨-, hi⟩
    · exact hwf lease
    · exact h.handle i a lease hi
  · rcases hcases i a hi with ⟨rfl, rfl⟩ | ⟨-, hi⟩
    · exact hfree
    · exact h.taken i a hi
  · rcases hcases i a hi with ⟨rfl, rfl⟩ | ⟨hine, hi⟩ <;>
      rcases hcases j b hj with ⟨rfl, rfl⟩ | ⟨hjne, hj⟩
    · rfl
    · exact absurd hab.symm (hnew j b ‹_›)
    · exact absurd hab (hnew i a ‹_›)
    · exact h.distinct i j a b hi hj hab
  · rcases hcases i a hi with ⟨rfl, rfl⟩ | ⟨-, hi⟩
    · exact hands
    · exact h.hands i a hi

lemma step (h : s.Keyed) (hst : Step S s t) : t.Keyed := by
  cases hst with
  | start m request claims alone enforced free =>
      refine h.spawn le_rfl ?_ (fun i a hi heq => ?_) (fun _ hl => absurd hl (by simp))
        yields_alone
      · by_contra hne
        obtain ⟨entry, hentry⟩ := Option.ne_none_iff_exists'.mp hne
        exact absurd (h.idle _ entry hentry).1 (lt_irrefl _)
      · exact absurd ((h.started i a hi).2.trans_eq' heq) (lt_irrefl _)
  | startOn m request lease id onLease idle free =>
      obtain ⟨hid, hof⟩ := h.idle id (m, lease) idle
      have hkey : Session.key ⟨m, request, some lease, (· ∈ lease.resources),
          request.onLease (S.manager m) lease⟩ s.next = id := hof.leaseId
      have hother : ∀ i a, s.sessions i = some a → a.key i ≠ id := by
        rintro i a hi rfl
        rw [h.taken i a hi] at idle
        exact absurd idle (by simp)
      have hs : System.Keyed { s with leases := Function.update s.leases id none } := by
        refine ⟨h.started, fun K entry hK => ?_, h.handle, fun i a hi => ?_, h.distinct, h.hands⟩
        · obtain ⟨-, hK⟩ | ⟨-, hK⟩ := update_eq_some hK
          · exact absurd hK (by simp)
          · exact h.idle K entry hK
        · exact (Function.update_of_ne (hother i a hi) ..).trans (h.taken i a hi)
      refine hs.spawn (hkey.trans_le hid.le) ?_ (fun i a hi => ?_) (fun lease' hl => ?_) ?_
      · rw [hkey]
        exact Function.update_self ..
      · rw [hkey]
        exact hother i a hi
      · obtain rfl := Option.some.inj hl
        exact hof.wf
      · rw [hkey, ← hof.leaseId]
        exact yields_onLease hof.wf
  | call i session o k answer w running program claimed answered =>
      have hkey : ∀ j a, Function.update s.sessions i (some { session with program := k answer }) j =
          some a → ∃ b, s.sessions j = some b ∧ a.key j = b.key j ∧ a.handle = b.handle := by
        intro j a hj
        obtain ⟨rfl, ha⟩ | ⟨-, hj⟩ := update_eq_some hj
        · obtain rfl := Option.some.inj ha
          exact ⟨session, running, rfl, rfl⟩
        · exact ⟨a, hj, rfl, rfl⟩
      refine ⟨fun j a hj => ?_, h.idle, fun j a lease hj hl => ?_, fun j a hj => ?_,
        fun j j' a a' hj hj' heq => ?_, fun j a hj => ?_⟩
      · obtain ⟨b, hb, hab, -⟩ := hkey j a hj
        rw [hab]
        exact h.started j b hb
      · obtain ⟨b, hb, -, hab⟩ := hkey j a hj
        exact h.handle j b lease hb (hab ▸ hl)
      · obtain ⟨b, hb, hab, -⟩ := hkey j a hj
        rw [hab]
        exact h.taken j b hb
      · obtain ⟨b, hb, hab, -⟩ := hkey j a hj
        obtain ⟨b', hb', hab', -⟩ := hkey j' a' hj'
        exact h.distinct j j' b b' hb hb' (by rw [← hab, ← hab', heq])
      · obtain ⟨rfl, ha⟩ | ⟨-, hj⟩ := update_eq_some hj
        · obtain rfl := Option.some.inj ha
          have hands := h.hands j session running
          rw [program] at hands
          exact hands answer (World.handler_answers answered)
        · exact h.hands j a hj
  | finish i session outcome running program =>
      have hsub : ∀ j a, Function.update s.sessions i none j = some a →
          j ≠ i ∧ s.sessions j = some a := by
        intro j a hj
        exact (update_eq_some hj).resolve_left fun h => absurd h.2 (by simp)
      have hands : outcome.Hands (session.key i) := by
        have hands := h.hands i session running
        rwa [program] at hands
      have hleases : ∀ K entry, (s.finish i session.manager outcome).leases K = some entry →
          s.leases K = some entry ∨ K = session.key i ∧ entry.2.Of K := by
        intro K entry hK
        unfold System.finish at hK
        cases ho : outcome.handle with
        | none =>
            rw [ho] at hK
            exact .inl hK
        | some lease =>
            simp only [ho] at hK
            have hof := hands lease ho
            obtain ⟨hne, ha⟩ | ⟨-, hK⟩ := update_eq_some hK
            · obtain rfl := Option.some.inj ha
              obtain rfl := hne.trans hof.leaseId
              exact .inr ⟨rfl, hof⟩
            · exact .inl hK
      refine ⟨fun j a hj => h.started j a (hsub j a hj).2, fun K entry hK => ?_,
        fun j a lease hj => h.handle j a lease (hsub j a hj).2, fun j a hj => ?_,
        fun j j' a a' hj hj' => h.distinct j j' a a' (hsub j a hj).2 (hsub j' a' hj').2,
        fun j a hj => h.hands j a (hsub j a hj).2⟩
      · rcases hleases K entry hK with hK | ⟨rfl, hof⟩
        · exact h.idle K entry hK
        · exact ⟨(h.started i session running).2, hof⟩
      · obtain ⟨hne, hj⟩ := hsub j a hj
        by_contra hcon
        obtain ⟨entry, hentry⟩ := Option.ne_none_iff_exists'.mp hcon
        rcases hleases _ entry hentry with hK | ⟨hK, -⟩
        · rw [h.taken j a hj] at hK
          exact absurd hK (by simp)
        · exact hne (h.distinct j i a session hj running hK)
  | environment w henv =>
      exact ⟨h.started, h.idle, h.handle, h.taken, h.distinct, h.hands⟩
  | crash m =>
      have hsub : ∀ i a, (s.sessions i).filter (fun session => decide (session.manager ≠ m)) = some a →
          s.sessions i = some a := fun i a hi => (Option.filter_eq_some_iff.mp hi).1
      have hleases : ∀ K entry, (s.leases K).filter (fun entry => decide (entry.1 ≠ m)) = some entry →
          s.leases K = some entry := fun K entry hK => (Option.filter_eq_some_iff.mp hK).1
      refine ⟨fun i a hi => h.started i a (hsub i a hi), fun K e hK => h.idle K e (hleases K e hK),
        fun i a l hi => h.handle i a l (hsub i a hi), fun i a hi => ?_,
        fun i j a b hi hj => h.distinct i j a b (hsub i a hi) (hsub j b hj),
        fun i a hi => h.hands i a (hsub i a hi)⟩
      change (s.leases (a.key i)).filter _ = none
      rw [h.taken i a (hsub i a hi), Option.filter_none]

/-- Leases are keyed in every run. -/
theorem reachable (h : Reachable S s) : s.Keyed := by
  induction h with
  | init h => exact .init h
  | step _ hst ih => exact ih.step hst

end System.Keyed

end Osdns
