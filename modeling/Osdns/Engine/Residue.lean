import Osdns.Serial.Cell

/-!
# What a failed mutation reports

Callers of `mutateAndVerify` decide ownership by the residue of a failure alone.  This module
shows that the residue can be believed: when nobody else writes the native state during the
call, it says what the call did, and the evidence it carries names the current native state.

The result is about the whole world and every placement of faults: other sessions and the
environment may do what they like, except to the native state of the one resource.
-/

namespace Osdns

open Interaction
open Engine

variable {F : Faults} {i : SessionId} {m : ManagerId} {caps : Capabilities} {r : ResourceId}
variable {α : Type}

/-! ## What snapshots and residues claim -/

/-- The snapshot proves the current native state of the resource `r`. -/
def ProvesNative (B : Backend FakeSnapshotData) (r : ResourceId) (p : FakeSnapshot)
    (c : Cell) : Prop :=
  ∃ current, c.read r = .ok current ∧ B.provesCurrent p current = true

/-- The newest event in `d` is a mutation made since `c`, and `p` is what it produced. -/
def LatestSince (c : Cell) (p : FakeSnapshot) (d : Cell) : Prop :=
  ∃ cause old time events, d.log = .mutated cause old p.data time :: (events ++ c.log)

/-- The native state is as in `c`, and no mutation was made since. -/
structure Untampered (c d : Cell) : Prop where
  state : d.state = c.state
  generation : d.generation = c.generation
  log : d.log = c.log

/-- The rollback names the current native state: by the latest snapshot issued since `c`, or,
when none was issued, by `expected` itself. -/
def PendingRollback.NamesNative (B : Backend FakeSnapshotData) (r : ResourceId)
    (expected : FakeSnapshot) (c : Cell) (pending : PendingRollback FakeSnapshotData)
    (d : Cell) : Prop :=
  match pending.evidence with
  | some p => LatestSince c p d ∧ ProvesNative B r p d
  | none => Untampered c d ∧ ProvesNative B r expected d

/-- A residue that says what a mutation over `expected` did between `c` and `d`. -/
def MutationResidue.Faithful (B : Backend FakeSnapshotData) (r : ResourceId)
    (expected : FakeSnapshot) (c : Cell) (d : Cell) : MutationResidue FakeSnapshotData → Prop
  | .unchanged => Untampered c d
  | .restored identity =>
      d.state = some expected.data.state ∧ ∃ p, identity = some p ∧ ProvesNative B r p d
  | .pending rollback => rollback.NamesNative B r expected c d

/-- The result of `mutateAndVerify` says what the call did. -/
def MutationFaithful (B : Backend FakeSnapshotData) (r : ResourceId) (expected : FakeSnapshot)
    (plan : NormalizedConfig) (c : Cell) :
    Except (MutationFailure FakeSnapshotData) (VerifiedMutation FakeSnapshotData) → Cell → Prop
  | .ok mutation, d =>
      ∃ current, d.read r = .ok current ∧ B.matchesDesired current plan = true ∧
        B.provesCurrent mutation.persist current = true
  | .error failure, d => failure.residue.Faithful B r expected c d

/-- Others may do anything but change the native state of `r`. -/
def undisturbed (r : ResourceId) : Rely World where
  rel w w' := Untampered (w.cells r) (w'.cells r)
  refl _ := ⟨rfl, rfl, rfl⟩
  trans h₁ h₂ :=
    ⟨h₂.state.trans h₁.state, h₂.generation.trans h₁.generation, h₂.log.trans h₁.log⟩

section Proofs

variable {p : FakeSnapshot} {c d e : Cell}

/-- A snapshot proves the native state when backend, state and generation agree. -/
lemma provesNative_iff : ProvesNative (fakeBackend caps) r p c ↔
    p.backend = .fake ∧ c.state = some p.data.state ∧ p.data.generation = c.generation := by
  unfold ProvesNative Cell.read Cell.snapshot
  constructor
  · rintro ⟨current, hread, hproves⟩
    cases hs : c.state with
    | none => simp [hs] at hread
    | some state =>
        simp only [hs, Option.map_some, Except.ok.injEq] at hread
        subst hread
        by_cases hb : p.backend = .fake <;>
          simp [fakeBackend, interpretFull, hb] at hproves ⊢
        exact ⟨hproves.2.symm, hproves.1⟩
  · rintro ⟨hb, hs, hg⟩
    simp [hs, fakeBackend, interpretFull, hb, hg]

lemma Untampered.refl (c : Cell) : Untampered c c := ⟨rfl, rfl, rfl⟩

lemma Untampered.trans (h₁ : Untampered c d) (h₂ : Untampered d e) : Untampered c e :=
  ⟨h₂.state.trans h₁.state, h₂.generation.trans h₁.generation, h₂.log.trans h₁.log⟩

lemma Untampered.provesNative (h : Untampered c d)
    (hp : ProvesNative (fakeBackend caps) r p c) : ProvesNative (fakeBackend caps) r p d := by
  rw [provesNative_iff] at hp ⊢
  exact ⟨hp.1, h.state.trans hp.2.1, hp.2.2.trans h.generation.symm⟩

lemma Untampered.latest (h : Untampered d e) (hp : LatestSince c p d) : LatestSince c p e := by
  unfold LatestSince at hp ⊢
  rwa [h.log]

lemma Untampered.namesNative {expected : FakeSnapshot} {pending : PendingRollback FakeSnapshotData}
    (h : Untampered d e) (hp : pending.NamesNative (fakeBackend caps) r expected c d) :
    pending.NamesNative (fakeBackend caps) r expected c e := by
  unfold PendingRollback.NamesNative at hp ⊢
  cases hev : pending.evidence with
  | none =>
      rw [hev] at hp
      exact ⟨hp.1.trans h, h.provesNative hp.2⟩
  | some q =>
      rw [hev] at hp
      exact ⟨h.latest hp.1, h.provesNative hp.2⟩

/-- What the backend returned for a mutation proves the state it left. -/
lemma provesNative_produced {cause : Cause} {old new : FakeState} {now : Instant} :
    ProvesNative (fakeBackend caps) r (c.produced r new) (c.mutate cause old new now) :=
  provesNative_iff.mpr ⟨rfl, rfl, rfl⟩

/-! ## Calls in the world -/

/-- A call about a resource is executed on its cell. -/
lemma World.handler_cell {o : ManagerOp FakeSnapshotData FakeIdentity}
    {answer : ManagerRet FakeSnapshotData FakeIdentity o} {w w' : World}
    (h : World.handler F i m o w answer w') (ho : o.target = some r) :
    Cell.handler F i m r o (w.cells r) answer (w'.cells r) := by
  obtain ⟨fate, hF, h⟩ := h
  simp only [World.exec, ho, Option.map_eq_some_iff, Prod.mk.injEq] at h
  obtain ⟨⟨a, c⟩, hexec, rfl, rfl⟩ := h
  have hc : (((w.setCell r c).account o).cells r) = c := by
    cases o with
    | engine o => cases o <;> simp [World.account, World.setCell]
    | _ => simp [World.account, World.setCell]
  unfold Cell.handler
  rw [if_pos ho, hc]
  exact ⟨w.clock, w.nextToken, fate, hF, hexec⟩

/-- Engine programs in the world, with nobody else at the native state of `r`. -/
abbrev UndisturbedSat (F : Faults) (i : SessionId) (m : ManagerId) (r : ResourceId)
    (p : Engine FakeSnapshotData FakeIdentity α) (Q : α → Cell → Prop) (w : World) : Prop :=
  p.Sat (fun o w answer w' => World.handler F i m (.engine o) w answer w') (undisturbed r)
    (fun _ _ _ _ => True) (fun a w => Q a (w.cells r)) w

/-- A postcondition that survives when the native state does. -/
def Lasting (Q : Cell → Prop) : Prop := ∀ {c d}, Untampered c d → Q c → Q d

section Rules

variable {w : World} {Q : α → Cell → Prop}

lemma undisturbed_pure {a : α} (hQ : Lasting (Q a)) (h : Q a (w.cells r)) :
    UndisturbedSat F i m r (pure a) Q w :=
  fun _ hw => hQ hw h

lemma undisturbed_bind {β : Type} {p : Engine FakeSnapshotData FakeIdentity α}
    {k : α → Engine FakeSnapshotData FakeIdentity β} {M : α → Cell → Prop} {Q : β → Cell → Prop}
    (hp : UndisturbedSat F i m r p M w)
    (hk : ∀ a u, M a (u.cells r) → UndisturbedSat F i m r (k a) Q u) :
    UndisturbedSat F i m r (p >>= k) Q w :=
  Program.Sat.seq hp hk

/-- A checkpoint leaves every cell alone. -/
lemma undisturbed_fire {point : TxPoint}
    {k : Except Error Unit → Engine FakeSnapshotData FakeIdentity α}
    (hk : ∀ u answer, Untampered (w.cells r) (u.cells r) → UndisturbedSat F i m r (k answer) Q u) :
    UndisturbedSat F i m r (fire point >>= k) Q w := by
  rintro u hu answer v ⟨fate, -, h⟩
  refine ⟨trivial, hk v answer ?_⟩
  cases fate <;> simp only [World.exec, ManagerOp.target, EngineOp.target, World.execGlobal,
    Option.some.injEq, Prod.mk.injEq] at h <;> obtain ⟨-, rfl⟩ := h <;> exact hu

lemma undisturbed_status {site : Site} {identity : FakeResourceIdentity}
    {k : Except Error ResourceStatus → Engine FakeSnapshotData FakeIdentity α}
    (hr : identity.resource = r)
    (hk : ∀ u answer, Untampered (w.cells r) (u.cells r) → UndisturbedSat F i m r (k answer) Q u) :
    UndisturbedSat F i m r (resourceStatus site identity >>= k) Q w := by
  intro u hu answer v hv
  have hcell := World.handler_cell hv (show _ = some r from congrArg some hr)
  obtain ⟨hvu, -⟩ := Cell.engineHandler_status hcell hr
  exact ⟨trivial, hk v answer (by rw [hvu]; exact hu)⟩

/-- A successful read answers with the current snapshot. -/
lemma undisturbed_readback {site : Site} {resource : ResourceId}
    {k : Except Error FakeSnapshot → Engine FakeSnapshotData FakeIdentity α}
    (hr : resource = r)
    (hk : ∀ u answer, Untampered (w.cells r) (u.cells r) →
      (∀ p, answer = .ok p → (u.cells r).read r = .ok p) → UndisturbedSat F i m r (k answer) Q u) :
    UndisturbedSat F i m r (readback site resource >>= k) Q w := by
  subst hr
  intro u hu answer v hv
  have hcell := World.handler_cell hv rfl
  obtain ⟨hvu, ha⟩ := Cell.engineHandler_readback hcell
  refine ⟨trivial, hk v answer (by rw [hvu]; exact hu) fun p hp => ?_⟩
  rcases ha with rfl | ⟨⟨_, rfl⟩, -⟩
  · rw [hvu, hp]
  · exact absurd hp (by simp)

/-! ## Guarded mutations -/

/-- What an attempt at a mutation in the state `d` leaves: nothing happened, or the mutation was
made and the attempt reports what it produced, a snapshot that satisfies `P`. -/
def Reported (caps : Capabilities) (r : ResourceId) (P : FakeSnapshot → Prop) (c d : Cell)
    (answer : MutationAttempt FakeSnapshotData) (e : Cell) : Prop :=
  (Untampered d e ∧ ((∃ error, answer = .rejected error) ∨
      ∃ error, answer = .indeterminate error none)) ∨
    ∃ p, P p ∧ LatestSince c p e ∧ ProvesNative (fakeBackend caps) r p e ∧
      (answer = .performed (some p) ∨ ∃ error, answer = .indeterminate error (some p))

lemma Reported.lasting {P : FakeSnapshot → Prop} {answer : MutationAttempt FakeSnapshotData} :
    Lasting (Reported caps r P c d answer) := by
  rintro e f h (⟨hde, ha⟩ | ⟨p, hP, hl, hp, ha⟩)
  · exact .inl ⟨hde.trans h, ha⟩
  · exact .inr ⟨p, hP, h.latest hl, h.provesNative hp, ha⟩

/-- A rejection before the backend is asked. -/
lemma undisturbed_rejected {P : FakeSnapshot → Prop} {error : Error}
    (h : Untampered d (w.cells r)) :
    UndisturbedSat F i m r (pure (.rejected error)) (Reported caps r P c d) w :=
  undisturbed_pure Reported.lasting (.inl ⟨h, .inl ⟨error, rfl⟩⟩)

/-- A mutation is the latest event, and what it produced is current. -/
lemma reported_mutate {P : FakeSnapshot → Prop} {cause : Cause} {old new : FakeState}
    {now : Instant} {answer : MutationAttempt FakeSnapshotData}
    (h : ∃ events, e.log = events ++ c.log) (hP : P (e.produced r new))
    (ha : answer = .performed (some (e.produced r new)) ∨
      ∃ error, answer = .indeterminate error (some (e.produced r new))) :
    Reported caps r P c d answer (e.mutate cause old new now) := by
  obtain ⟨events, h⟩ := h
  exact .inr ⟨_, hP, ⟨cause, _, now, events, by rw [Cell.mutate, h]; rfl⟩, provesNative_produced, ha⟩

section Guarded

variable {cause : Cause} {identity : FakeResourceIdentity} {expected : FakeSnapshot}

/-- `apply_bound` reports what it did. -/
lemma undisturbed_applyBound {plan : NormalizedConfig} (hr : identity.resource = r) :
    UndisturbedSat F i m r (applyBound (fakeBackend caps) cause identity expected plan)
      (Reported caps r (fun _ => True) (w.cells r) (w.cells r)) w := by
  unfold applyBound
  refine undisturbed_status hr fun u answer hu => ?_
  match answer with
  | .error error => exact undisturbed_rejected hu
  | .ok .gone => exact undisturbed_rejected hu
  | .ok .replaced => exact undisturbed_rejected hu
  | .ok .ambiguous => exact undisturbed_rejected hu
  | .ok .same =>
      subst hr
      intro v huv answer x hx
      refine ⟨trivial, undisturbed_pure Reported.lasting ?_⟩
      have hv := hu.trans huv
      obtain ⟨now, token, fate, -, hexec⟩ :=
        Cell.engineHandler_exec (World.handler_cell hx rfl) rfl
      simp only [Cell.execEngine, Option.some.injEq] at hexec
      have hlog : ∃ events, (v.cells identity.resource).log = events ++
          (w.cells identity.resource).log := ⟨[], hv.log⟩
      unfold Cell.applyGuarded at hexec
      split at hexec
      · obtain ⟨rfl, hc⟩ := Prod.mk.inj hexec
        exact .inl ⟨hc ▸ hv, .inr ⟨_, rfl⟩⟩
      · obtain ⟨rfl, hc⟩ := Prod.mk.inj hexec
        exact .inl ⟨hc ▸ hv, .inr ⟨_, rfl⟩⟩
      · obtain ⟨rfl, hc⟩ := Prod.mk.inj hexec
        exact .inl ⟨hc ▸ hv, .inr ⟨_, rfl⟩⟩
      · split at hexec
        · dsimp only at hexec
          split at hexec
          · obtain ⟨rfl, hc⟩ := Prod.mk.inj hexec
            exact hc ▸ reported_mutate hlog trivial (.inl rfl)
          · obtain ⟨rfl, hc⟩ := Prod.mk.inj hexec
            exact hc ▸ reported_mutate hlog trivial (.inr ⟨_, rfl⟩)
        · obtain ⟨rfl, hc⟩ := Prod.mk.inj hexec
          exact .inl ⟨hc ▸ hv, .inl ⟨_, rfl⟩⟩

/-- `restore_bound` reports what it did; what it produced has the content of the target. -/
lemma undisturbed_restoreBound {target : FakeSnapshot} (hr : identity.resource = r)
    (hc : ∃ events, (w.cells r).log = events ++ c.log) :
    UndisturbedSat F i m r (restoreBound (fakeBackend caps) cause identity expected target)
      (Reported caps r (·.data.state = target.data.state) c (w.cells r)) w := by
  unfold restoreBound
  refine undisturbed_status hr fun u answer hu => ?_
  match answer with
  | .error error => exact undisturbed_rejected hu
  | .ok .gone => exact undisturbed_rejected hu
  | .ok .replaced => exact undisturbed_rejected hu
  | .ok .ambiguous => exact undisturbed_rejected hu
  | .ok .same =>
      subst hr
      intro v huv answer x hx
      refine ⟨trivial, undisturbed_pure Reported.lasting ?_⟩
      have hv := hu.trans huv
      obtain ⟨now, token, fate, -, hexec⟩ :=
        Cell.engineHandler_exec (World.handler_cell hx rfl) rfl
      simp only [Cell.execEngine, Option.some.injEq] at hexec
      have hlog : ∃ events, (v.cells identity.resource).log = events ++ c.log := by
        rw [hv.log]
        exact hc
      have hunchanged : ∀ {error}, (MutationAttempt.indeterminate error none,
          v.cells identity.resource) = (answer, x.cells identity.resource) →
          Reported caps identity.resource (·.data.state = target.data.state) c
            (w.cells identity.resource) answer (x.cells identity.resource) := fun h => by
        obtain ⟨rfl, hc⟩ := Prod.mk.inj h
        exact .inl ⟨hc ▸ hv, .inr ⟨_, rfl⟩⟩
      unfold Cell.restoreGuarded at hexec
      split at hexec
      · exact hunchanged hexec
      · exact hunchanged hexec
      · split at hexec
        · exact hunchanged hexec
        · split at hexec
          · exact hunchanged hexec
          · exact hunchanged hexec
          · exact hunchanged hexec
          · rename_i data new state _ hnew _
            have hstate : ∀ data, interpretFull target = .ok data → data = target.data := by
              intro data h
              unfold interpretFull at h
              split at h
              · exact (Except.ok.inj h).symm
              · exact absurd h (by simp)
            split at hexec
            · obtain ⟨rfl, hc⟩ := Prod.mk.inj hexec
              refine hc ▸ reported_mutate hlog ?_ (.inl rfl)
              rw [← hstate new hnew]
              rfl
            · obtain ⟨rfl, hc⟩ := Prod.mk.inj hexec
              exact .inl ⟨hc ▸ hv, .inl ⟨_, rfl⟩⟩

end Guarded

/-! ## Compensation -/

/-- What `compensate` answers: a snapshot that proves the restored content, or a rollback that
still names the native state. -/
def Repaired (caps : Capabilities) (r : ResourceId) (expected : FakeSnapshot) (c : Cell)
    (answer : Except Error (Option FakeSnapshot) × PendingRollback FakeSnapshotData)
    (d : Cell) : Prop :=
  match answer with
  | (.ok identity, _) =>
      (MutationResidue.restored identity).Faithful (fakeBackend caps) r expected c d
  | (.error _, pending) => pending.NamesNative (fakeBackend caps) r expected c d

lemma Faithful.lasting {expected : FakeSnapshot} {residue : MutationResidue FakeSnapshotData} :
    Lasting fun d => residue.Faithful (fakeBackend caps) r expected c d := by
  intro d e h hd
  cases residue with
  | unchanged => exact Untampered.trans hd h
  | restored identity =>
      obtain ⟨hs, p, rfl, hp⟩ := hd
      exact ⟨h.state.trans hs, p, rfl, h.provesNative hp⟩
  | pending rollback => exact h.namesNative hd

lemma Repaired.lasting {expected : FakeSnapshot}
    {answer : Except Error (Option FakeSnapshot) × PendingRollback FakeSnapshotData} :
    Lasting (Repaired caps r expected c answer) := by
  intro d e h hd
  match answer with
  | (.ok identity, _) =>
      obtain ⟨hs, p, rfl, hp⟩ := hd
      exact ⟨h.state.trans hs, p, rfl, h.provesNative hp⟩
  | (.error _, pending) => exact h.namesNative hd

/-- A successful read of the fake backend is a snapshot of it. -/
lemma Cell.read_of {p : FakeSnapshot} (h : c.read r = .ok p) :
    p.backend = .fake ∧ c.state = some p.data.state ∧ p.data.generation = c.generation := by
  obtain ⟨hp, hs, hg⟩ := Cell.snapshot_eq_some (Cell.read_eq_ok h)
  exact ⟨hp.1, hs, hg⟩

/-- A snapshot that proves the native state proves what is read. -/
lemma ProvesNative.read {current : FakeSnapshot} (h : ProvesNative (fakeBackend caps) r p c)
    (hread : c.read r = .ok current) : (fakeBackend caps).provesCurrent p current = true := by
  obtain ⟨current', hread', hp⟩ := h
  rw [hread, Except.ok.injEq] at hread'
  exact hread' ▸ hp

/-- What is read has the content of any snapshot equivalent to it. -/
lemma Cell.state_of_equivalent {current target : FakeSnapshot} (hread : c.read r = .ok current)
    (h : (fakeBackend caps).equivalent current target = true) :
    c.state = some target.data.state := by
  obtain ⟨hb, hs, -⟩ := Cell.read_of hread
  by_cases ht : target.backend = .fake
  · simp only [fakeBackend, interpretFull, hb, ht, if_true, beq_iff_eq] at h
    rw [hs, h]
  · simp [fakeBackend, interpretFull, hb, ht] at h

/-- The read-back of a restore that was performed. -/
lemma undisturbed_verifyCompensation {identity : FakeResourceIdentity}
    {pending : PendingRollback FakeSnapshotData} (hr : identity.resource = r)
    (hl : LatestSince c p (w.cells r)) (hp : ProvesNative (fakeBackend caps) r p (w.cells r))
    (hev : pending.evidence = some p) :
    UndisturbedSat F i m r (verifyCompensation (fakeBackend caps) identity pending).run
      (fun answer => Repaired caps r pending.target c (answer, pending)) w := by
  have hnames : pending.NamesNative (fakeBackend caps) r pending.target c (w.cells r) := by
    unfold PendingRollback.NamesNative
    rw [hev]
    exact ⟨hl, hp⟩
  have herror : ∀ (u : World) (error : Error), Untampered (w.cells r) (u.cells r) →
      UndisturbedSat F i m r (pure (.error error))
        (fun answer => Repaired caps r pending.target c (answer, pending)) u := fun u error hu =>
    undisturbed_pure Repaired.lasting (hu.namesNative hnames)
  unfold verifyCompensation
  refine undisturbed_readback hr fun u answer hu hread => ?_
  match answer with
  | .error error => exact herror u error hu
  | .ok now =>
      refine undisturbed_status hr fun v answer hv => ?_
      have hwv := hu.trans hv
      match answer with
      | .error error => exact herror v error hwv
      | .ok status =>
          dsimp only [ExceptT.bindCont]
          split
          · exact herror v _ hwv
          · rename_i hsame
            rw [not_or, Bool.not_eq_false] at hsame
            have howns := (hu.provesNative hp).read (hread now rfl)
            have hfilter : pending.evidence.filter ((fakeBackend caps).ownsCurrent · now) =
                some p := by
              rw [hev, Option.filter_some, fakeBackend_ownsCurrent, if_pos howns]
            have hstate := Cell.state_of_equivalent (hread now rfl) hsame.2
            rw [hfilter]
            exact undisturbed_pure Repaired.lasting
              ⟨hv.state.trans hstate, p, rfl, hwv.provesNative hp⟩

/-- The events of a mutation made since. -/
lemma LatestSince.events (h : LatestSince c p d) : ∃ events, d.log = events ++ c.log := by
  obtain ⟨cause, old, time, events, h⟩ := h
  exact ⟨.mutated cause old p.data time :: events, h⟩

/-- `compensate` with evidence that names the native state. -/
lemma undisturbed_compensate {lease : LeaseId} {identity : FakeResourceIdentity}
    {pending : PendingRollback FakeSnapshotData} (hr : identity.resource = r)
    (hp : pending.NamesNative (fakeBackend caps) r pending.target c (w.cells r)) :
    UndisturbedSat F i m r (compensate (fakeBackend caps) lease identity pending none)
      (Repaired caps r pending.target c) w := by
  have herror : ∀ (u : World) (error : Error), Untampered (w.cells r) (u.cells r) →
      UndisturbedSat F i m r (pure (.error error, pending)) (Repaired caps r pending.target c) u :=
    fun u error hu => undisturbed_pure Repaired.lasting (hu.namesNative hp)
  unfold compensate
  refine undisturbed_status hr fun u answer hu => ?_
  match answer with
  | .error error => exact herror u error hu
  | .ok status =>
  dsimp only
  split
  · exact herror u _ hu
  refine undisturbed_readback hr fun v answer huv hread => ?_
  have hv := hu.trans huv
  have hpv := hv.namesNative hp
  match answer with
  | .error error => exact herror v error hv
  | .ok current =>
  replace hread := hread current rfl
  dsimp only
  split
  · rename_i hequiv
    have hstate := Cell.state_of_equivalent hread hequiv
    cases hev : pending.evidence with
    | some q =>
        rw [PendingRollback.NamesNative, hev] at hpv
        rw [Option.filter_some, fakeBackend_ownsCurrent, if_pos (hpv.2.read hread)]
        exact undisturbed_pure Repaired.lasting ⟨hstate, q, rfl, hpv.2⟩
    | none =>
        rw [PendingRollback.NamesNative, hev] at hpv
        rw [Option.filter_none, fakeBackend_ownsCurrent, if_pos (hpv.2.read hread)]
        exact undisturbed_pure Repaired.lasting ⟨hstate, _, rfl, hpv.2⟩
  cases hev : pending.evidence with
  | none => exact herror v _ hv
  | some q =>
  rw [PendingRollback.NamesNative, hev] at hpv
  dsimp only
  split
  · exact herror v _ hv
  refine undisturbed_bind (undisturbed_restoreBound hr hpv.1.events) fun answer x hx => ?_
  rcases hx with ⟨hvx, ⟨error, rfl⟩ | ⟨error, rfl⟩⟩ | ⟨new, hnew, hl, hproves, rfl | ⟨error, rfl⟩⟩
  · exact herror x error (hv.trans hvx)
  · exact herror x error (hv.trans hvx)
  · refine undisturbed_bind (undisturbed_verifyCompensation hr hl hproves rfl) fun answer y hy => ?_
    exact undisturbed_pure Repaired.lasting hy
  · exact undisturbed_pure Repaired.lasting ⟨hl, hproves⟩

/-- `rollback_proven` leaves a residue that can be believed. -/
lemma undisturbed_rollbackProven {lease : LeaseId} {identity : FakeResourceIdentity}
    {proof : Option FakeSnapshot} {expected : FakeSnapshot} (hr : identity.resource = r)
    (hp : PendingRollback.NamesNative (fakeBackend caps) r expected c ⟨proof, expected⟩
      (w.cells r)) :
    UndisturbedSat F i m r (rollbackProven (fakeBackend caps) lease identity proof expected)
      (fun residue d => residue.Faithful (fakeBackend caps) r expected c d) w := by
  refine undisturbed_bind (undisturbed_compensate hr hp) fun answer u hu => ?_
  match answer with
  | (.ok identity, _) => exact undisturbed_pure Faithful.lasting hu
  | (.error _, pending) => exact undisturbed_pure Faithful.lasting hu

/-! ## Mutation and verification -/

lemma MutationFaithful.lasting {expected : FakeSnapshot} {plan : NormalizedConfig}
    {answer : Except (MutationFailure FakeSnapshotData) (VerifiedMutation FakeSnapshotData)} :
    Lasting (MutationFaithful (fakeBackend caps) r expected plan c answer) := by
  intro d e h hd
  match answer with
  | .ok mutation =>
      obtain ⟨current, hread, hmatches, hproves⟩ := hd
      refine ⟨current, ?_, hmatches, hproves⟩
      rw [← hread]
      simp only [Cell.read, Cell.snapshot, h.state, h.generation]
  | .error failure => exact Faithful.lasting (c := c) h hd

/-- Every way out of `mutate_and_verify` after an attempt at the mutation. -/
lemma undisturbed_failMutation {lease : LeaseId} {identity : FakeResourceIdentity}
    {produced : Option FakeSnapshot} {expected : FakeSnapshot} {plan : NormalizedConfig}
    {error : Error} (hr : identity.resource = r)
    (hp : PendingRollback.NamesNative (fakeBackend caps) r expected c ⟨produced, expected⟩
      (w.cells r)) :
    UndisturbedSat F i m r
      (failMutation (fakeBackend caps) lease identity expected produced error)
      (MutationFaithful (fakeBackend caps) r expected plan c) w :=
  undisturbed_bind (undisturbed_rollbackProven hr hp) fun _ _ hu =>
    undisturbed_pure MutationFaithful.lasting hu

/-- `mutate_and_verify` over evidence that proves the native state. -/
lemma undisturbed_mutateAndVerify {cause : Cause} {identity : FakeResourceIdentity}
    {expected : FakeSnapshot} {plan : NormalizedConfig} {points : MutatePoints}
    (hr : identity.resource = r)
    (hproves : ProvesNative (fakeBackend caps) r expected (w.cells r)) :
    UndisturbedSat F i m r
      (mutateAndVerify (fakeBackend caps) cause identity expected plan points)
      (MutationFaithful (fakeBackend caps) r expected plan (w.cells r)) w := by
  unfold mutateAndVerify
  refine undisturbed_bind (undisturbed_applyBound hr) fun answer u hu => ?_
  rcases hu with ⟨hwu, ⟨error, rfl⟩ | ⟨error, rfl⟩⟩ | ⟨new, -, hl, hnew, ha⟩
  · exact undisturbed_pure MutationFaithful.lasting hwu
  · exact undisturbed_failMutation hr ⟨hwu, hwu.provesNative hproves⟩
  have hfail : ∀ (v : World) (error : Error), Untampered (u.cells r) (v.cells r) →
      UndisturbedSat F i m r
        (failMutation (fakeBackend caps) cause.lease identity expected (some new) error)
        (MutationFaithful (fakeBackend caps) r expected plan (w.cells r)) v := fun v error hv =>
    undisturbed_failMutation hr ⟨hv.latest hl, hv.provesNative hnew⟩
  obtain rfl | ⟨error, rfl⟩ := ha
  swap
  · exact hfail u error (.refl _)
  refine undisturbed_fire fun v answer hv => ?_
  match answer with
  | .error error => exact hfail v error hv
  | .ok _ =>
  refine undisturbed_status hr fun v' answer hv' => ?_
  replace hv := hv.trans hv'
  match answer with
  | .error error => exact hfail v' error hv
  | .ok status =>
  dsimp only
  split
  · exact hfail v' _ hv
  refine undisturbed_readback hr fun x answer hx hread => ?_
  replace hv := hv.trans hx
  match answer with
  | .error error => exact hfail x error hv
  | .ok actual =>
  replace hread := hread actual rfl
  refine undisturbed_fire fun y answer hy => ?_
  have huy := hv.trans hy
  match answer with
  | .error error => exact hfail y error huy
  | .ok _ =>
  dsimp only
  split
  · exact hfail y _ huy
  rename_i hmatches
  refine undisturbed_status hr fun y' answer hy' => ?_
  replace huy := huy.trans hy'
  match answer with
  | .error error => exact hfail y' error huy
  | .ok status =>
  dsimp only
  split
  · exact hfail y' _ huy
  refine undisturbed_fire fun z answer hz => ?_
  have huz := huy.trans hz
  match answer with
  | .error error => exact hfail z error huz
  | .ok _ =>
  dsimp only [fakeBackend_ownershipIdentity]
  split
  · exact hfail z _ huz
  rename_i hproved
  refine undisturbed_pure MutationFaithful.lasting ⟨actual, ?_, ?_, ?_⟩
  · have hxz := (hy.trans hy').trans hz
    rw [← hread]
    simp only [Cell.read, Cell.snapshot, hxz.state, hxz.generation]
  · simpa using hmatches
  · simpa [VerifiedMutation.persist] using hproved

end Rules

end Proofs

/-- The result of `mutate_and_verify` says what the call did.  The snapshot `expected` proves the
native state when the call starts, nobody else changes it during the call, and any call may fail.
Then a failure with residue `unchanged` made no mutation; one with residue `restored` left the
content of `expected` and carries a snapshot that proves the native state; one with residue
`pending` carries the latest snapshot issued during the call, which proves the native state, or
none, and then `expected` still proves it; and success means that the native state expresses the
plan and is proved by the snapshot returned. -/
theorem mutateAndVerify_residue (F : Faults) (i : SessionId) (m : ManagerId)
    (caps : Capabilities) (cause : Cause) (identity : FakeResourceIdentity)
    (expected : FakeSnapshot) (plan : NormalizedConfig) (points : MutatePoints) (w : World)
    (hproves : ProvesNative (fakeBackend caps) identity.resource expected
      (w.cells identity.resource)) :
    (engine (mutateAndVerify (fakeBackend caps) cause identity expected plan points)).Sat
      (World.handler F i m) (undisturbed identity.resource) (fun _ _ _ _ => True)
      (fun answer w' => MutationFaithful (fakeBackend caps) identity.resource expected plan
        (w.cells identity.resource) answer (w'.cells identity.resource)) w :=
  Program.Sat.lift (fun _ _ _ _ h => h) (fun _ _ _ _ _ h => h)
    (undisturbed_mutateAndVerify rfl hproves)

/-- A native state with a server and a search domain. -/
def officeState : FakeState :=
  .configured [.v4 3221225985] [⟨"corp.example".toList⟩] [] (some false)

/-- A world in which that state was written last, after two others. -/
def officeWorld : World :=
  let w := World.pristine (.single .loopback) officeState
  w.setCell .loopback { w.cells .loopback with generation := 3 }

/-- A plan with another server, no search domain and another default route. -/
def homePlan : NormalizedConfig := ⟨[.v4 3325256705], [], [], some true⟩

/-- A plan that replaces a configuration, in a world where every call may fail. -/
theorem mutateAndVerify_residue_office :
    stateMatches officeState homePlan = false ∧
      ProvesNative (fakeBackend (.full .fake)) .loopback ⟨.fake, .loopback, ⟨officeState, 3⟩⟩
        (officeWorld.cells .loopback) ∧
      (engine (mutateAndVerify (fakeBackend (.full .fake)) ⟨0, false⟩
        (⟨.fake, .loopback, ⟨0⟩⟩ : FakeResourceIdentity) ⟨.fake, .loopback, ⟨officeState, 3⟩⟩
        homePlan initialPoints)).Sat (World.handler (fun _ => True) 0 0)
        (undisturbed .loopback) (fun _ _ _ _ => True)
        (fun answer w' => MutationFaithful (fakeBackend (.full .fake)) .loopback
          ⟨.fake, .loopback, ⟨officeState, 3⟩⟩ homePlan (officeWorld.cells .loopback) answer
          (w'.cells .loopback))
        officeWorld := by
  have hproves : ProvesNative (fakeBackend (.full .fake)) .loopback
      ⟨.fake, .loopback, ⟨officeState, 3⟩⟩ (officeWorld.cells .loopback) :=
    provesNative_iff.mpr ⟨rfl, rfl, rfl⟩
  exact ⟨by decide, hproves, mutateAndVerify_residue (fun _ => True) 0 0 (.full .fake) ⟨0, false⟩
    ⟨.fake, .loopback, ⟨0⟩⟩ _ homePlan initialPoints _ hproves⟩

end Osdns
