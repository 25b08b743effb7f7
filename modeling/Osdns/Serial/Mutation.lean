import Osdns.Serial.Evidence
import Osdns.Model.System

/-!
# Mutation and compensation on one resource

The specifications of `compensate`, `rollbackProven` and `mutateAndVerify` over the cell of one
resource, for any placement of backend faults and any external changes in between.

They share one frame, `Working`: the invariant holds, the journal backs a mutation for the lease,
its live record admits one, and nothing but the native state has changed since the call began.
-/

namespace Osdns

open Interaction
open Engine

variable {r : ResourceId} {L : LeaseId} {b : FakeState} {c c₀ d : Cell}
variable {F : Faults} {i : SessionId} {m : ManagerId} {caps : Capabilities} {α : Type}

/-- `Program.Sat` for engine programs on the cell of `r`. -/
abbrev EngineSat (F : Faults) (i : SessionId) (m : ManagerId) (r : ResourceId)
    (p : Engine FakeSnapshotData FakeIdentity α) (Q : α → Cell → Prop) (c : Cell) : Prop :=
  p.Sat (Cell.engineHandler F i m r) interference (engineGuarantee r i) Q c

/-! ## Rules for single calls -/

lemma Accounted.refl (i : SessionId) (c : Cell) : Accounted i c c where
  mutation m L live _ _ _ cause old new time h := absurd h (by simp)
  release L live live' hl hb hl' hb' := by
    rw [hl, Option.some.injEq] at hl'
    rw [hl', hb'] at hb
    exact absurd hb (by simp)
  fresh _ _ h := h
  lock := rfl
  active := rfl

lemma sat_pure {a : α} {Q : α → Cell → Prop} (hQ : Stable interference (Q a)) (hc : Q a c) :
    EngineSat F i m r (pure a) Q c :=
  Program.Sat.done hQ hc fun _ h => h

lemma sat_bind {β : Type} {p : Engine FakeSnapshotData FakeIdentity α}
    {k : α → Engine FakeSnapshotData FakeIdentity β} {M : α → Cell → Prop}
    {Q : β → Cell → Prop} (hp : EngineSat F i m r p M c)
    (hk : ∀ a d, M a d → EngineSat F i m r (k a) Q d) :
    EngineSat F i m r (p >>= k) Q c :=
  Program.Sat.seq hp hk

lemma sat_status {site : Site} {identity : FakeResourceIdentity}
    {k : Except Error ResourceStatus → Engine FakeSnapshotData FakeIdentity α}
    {Q : α → Cell → Prop} (hr : identity.resource = r) (hinv : CellInv r c)
    (hk : ∀ d answer, Interference c d → EngineSat F i m r (k answer) Q d) :
    EngineSat F i m r (resourceStatus site identity >>= k) Q c := by
  intro d hd answer e he
  obtain ⟨rfl, -⟩ := Cell.engineHandler_status he hr
  exact ⟨⟨CellInv.stable hd hinv, .refl ..⟩, hk _ answer hd⟩

/-- A successful read answers with the current snapshot. -/
lemma sat_readback {site : Site} {resource : ResourceId}
    {k : Except Error FakeSnapshot → Engine FakeSnapshotData FakeIdentity α}
    {Q : α → Cell → Prop} (hr : resource = r) (hinv : CellInv r c)
    (hk : ∀ d answer, Interference c d → (∀ p, answer = .ok p → d.snapshot r = some p) →
      EngineSat F i m r (k answer) Q d) :
    EngineSat F i m r (readback site resource >>= k) Q c := by
  subst hr
  intro d hd answer e he
  obtain ⟨rfl, ha⟩ := Cell.engineHandler_readback he
  refine ⟨⟨CellInv.stable hd hinv, .refl ..⟩, hk _ answer hd fun p hp => ?_⟩
  subst hp
  exact Cell.engineHandler_readback_ok he

/-- A successful capture answers with the current snapshot. -/
lemma sat_capture {resource : ResourceId}
    {k : Except Error FakeSnapshot → Engine FakeSnapshotData FakeIdentity α}
    {Q : α → Cell → Prop} (hr : resource = r) (hinv : CellInv r c)
    (hk : ∀ d answer, Interference c d → (∀ p, answer = .ok p → d.snapshot r = some p) →
      EngineSat F i m r (k answer) Q d) :
    EngineSat F i m r (capture resource >>= k) Q c := by
  subst hr
  intro d hd answer e he
  obtain ⟨rfl, ha⟩ := Cell.engineHandler_capture he
  refine ⟨⟨CellInv.stable hd hinv, .refl ..⟩, hk _ answer hd fun p hp => ?_⟩
  rcases ha with rfl | ⟨⟨_, rfl⟩, -⟩
  · exact Cell.read_eq_ok hp
  · exact absurd hp (by simp)

lemma Cell.interference_pending (c : Cell) (pending : ManagerId → Option Pending) :
    Interference c { c with pending } :=
  ⟨⟨rfl, rfl, rfl, rfl, rfl, .inl ⟨rfl, rfl, rfl⟩⟩, rfl, rfl⟩

lemma Cell.accounted_pending (i : SessionId) (c : Cell)
    (pending : ManagerId → Option Pending) : Accounted i c { c with pending } :=
  ⟨⟨fun m L live _ _ _ cause old new time h => absurd h (by simp),
    (Accounted.refl i c).release, fun L _ h => ⟨h.1, h.2, h.3, h.4, h.5⟩⟩, rfl, rfl⟩

lemma sat_fire {point : TxPoint} {k : Except Error Unit → Engine FakeSnapshotData FakeIdentity α}
    {Q : α → Cell → Prop} (hinv : CellInv r c)
    (hk : ∀ d answer, Interference c d → (answer = .ok () ∨ F (.engine (.fire point))) →
      EngineSat F i m r (k answer) Q d) :
    EngineSat F i m r (fire point >>= k) Q c := by
  intro d hd answer e he
  obtain ⟨hed, ha⟩ := Cell.engineHandler_fire he
  have hde : Interference d e := hed ▸ d.interference_pending e.pending
  exact ⟨⟨CellInv.stable hde (CellInv.stable hd hinv), hed ▸ d.accounted_pending i e.pending⟩,
    hk e answer (interference.trans hd hde) ha⟩

/-! ## The native effect of a mutation -/

/-- Everything that programs keep about a resource besides its native state is as in `c`. -/
structure SameMemory (c d : Cell) : Prop where
  journal : d.journal = c.journal
  lock : d.lock = c.lock
  live : d.live = c.live
  active : d.active = c.active
  removals : d.removals = c.removals
  confirmed : d.confirmed = c.confirmed

lemma SameMemory.refl (c : Cell) : SameMemory c c := ⟨rfl, rfl, rfl, rfl, rfl, rfl⟩

lemma SameMemory.trans (h₁ : SameMemory c₀ c) (h₂ : SameMemory c d) : SameMemory c₀ d :=
  ⟨h₂.journal.trans h₁.journal, h₂.lock.trans h₁.lock, h₂.live.trans h₁.live,
    h₂.active.trans h₁.active, h₂.removals.trans h₁.removals, h₂.confirmed.trans h₁.confirmed⟩

lemma SameMemory.symm (h : SameMemory c d) : SameMemory d c :=
  ⟨h.journal.symm, h.lock.symm, h.live.symm, h.active.symm, h.removals.symm, h.confirmed.symm⟩

lemma SameMemory.record (h : SameMemory c d) (lease : LeaseId) :
    d.record lease = c.record lease := by
  rw [Cell.record, Cell.record, h.journal]

lemma Interference.sameMemory (h : Interference c d) : SameMemory c d :=
  ⟨h.journal, h.lock, h.live, h.active, h.removals, h.confirmed⟩

lemma SameMemory.stable : Stable interference (SameMemory c₀) :=
  fun h hc => hc.trans h.sameMemory

/-- The frame of a mutation for `L`: nothing but the native state differs from `c₀`, and that by
external changes only unless the record of `L` is kept; the evidence issued in `c₀` still is,
and no other lease left a trace. -/
structure Working (r : ResourceId) (i : SessionId) (L : LeaseId) (b : FakeState)
    (c₀ c : Cell) : Prop where
  inv : CellInv r c
  backed : Backed L b c
  unblocked : Unblocked L c
  known : Known i L c
  memory : SameMemory c₀ c
  later : c₀.generation ≤ c.generation
  issued : ∀ p, Issued r L b p c₀ → Issued r L b p c
  moved : Shift c₀ c ∨ Kept L c
  fresh : ∀ L', L' ≠ L → Fresh L' c₀ → Fresh L' c

lemma Working.stable : Stable interference (Working r i L b c₀) := fun h hc =>
  ⟨CellInv.stable h hc.inv, Backed.stable h hc.backed, Unblocked.stable h hc.unblocked,
    Known.stable h hc.known, SameMemory.stable h hc.memory, hc.later.trans h.shift.generation_le,
    fun p hp => Issued.stable h (hc.issued p hp),
    hc.moved.imp (fun hs => hs.trans h.shift) (Kept.stable h),
    fun L' hL' hf => Fresh.stable h (hc.fresh L' hL' hf)⟩

/-- A record of the lease over the base content is as good after the mutation as before it. -/
lemma RecordOK.working {record : FakeRecord} (hr : RecordOK r L record c₀)
    (hb : record.before.data.state = b) (hw : Working r i L b c₀ c) : RecordOK r L record c :=
  { hr with
    before_le := hr.before_le.trans hw.later
    base := fun ho => hb.trans (hw.backed.base ho).symm
    evidence := fun p hp => by rw [hb]; exact hw.issued p (hb ▸ hr.evidence p hp) }

lemma SameMemory.kept (h : SameMemory c d) (hc : Kept L c) : Kept L d := by
  unfold Kept GivenUp
  rw [h.record, h.removals]
  exact hc

section Mutate

variable {cause : Cause} {expected p : FakeSnapshot} {new : FakeState} {now : Instant}

/-- Evidence survives any mutation: afterwards it is no longer current. -/
lemma Issued.mutate {L' : LeaseId} {old : FakeState} (h : Issued r L' b p c) :
    Issued r L' b p (c.mutate cause old new now) := by
  refine ⟨h.of, h.generation_le.trans (Nat.le_succ _), fun hp => ?_⟩
  have hg := (Cell.snapshot_eq_some hp).2.2
  have hle := h.generation_le
  rw [hg] at hle
  exact absurd hle (Nat.not_succ_le_self _)

/-- What a mutation produces is evidence for its lease. -/
lemma Issued.produced {old : FakeState} (hL : cause.lease = L) :
    Issued r L b (c.produced r new) (c.mutate cause old new now) :=
  ⟨⟨rfl, rfl⟩, le_rfl, fun _ => .inl (by rw [Ours, ← hL]; rfl)⟩

lemma Names.produced {old : FakeState} :
    Names r L (c.produced r new) (c.mutate cause old new now) :=
  fun _ => rfl

/-- A mutation over evidence of its lease keeps the base. -/
lemma base_mutate (hL : cause.lease = L) (hw : Backed L b c) (he : Issued r L b expected c)
    (hs : c.snapshot r = some expected) :
    (c.mutate cause expected.data.state new now).base = b := by
  subst hL
  by_cases ho : c.writer = .engine cause.lease
  · simp only [Cell.mutate, if_pos ho]
    exact hw.base ho
  · simp only [Cell.mutate, if_neg ho]
    exact (he.owned hs).resolve_left ho

/-- A mutation over evidence of its lease keeps the frame. -/
lemma Working.mutate (hL : cause.lease = L) (hw : Working r i L b c₀ c) (hk : Kept L c)
    (he : Issued r L b expected c) (hs : c.snapshot r = some expected) :
    Working r i L b c₀ (c.mutate cause expected.data.state new now) := by
  have hbase : (c.mutate cause expected.data.state new now).base = b :=
    base_mutate hL hw.backed he hs
  have hours : ∀ L', Ours L' (c.mutate cause expected.data.state new now) → L' = L :=
    fun L' h => by
      rw [Ours, Cell.mutate, hL, Writer.engine.injEq] at h
      exact h.symm
  refine ⟨⟨fun L' record hrec => ?_, fun L' ho => ?_, hw.inv.confirmed,
      hw.inv.live⟩,
    ⟨fun _ => hbase, hw.backed.same⟩, hw.unblocked, hw.known,
    hw.memory.trans ⟨rfl, rfl, rfl, rfl, rfl, rfl⟩, hw.later.trans (Nat.le_succ _),
    fun p hp => (hw.issued p hp).mutate, .inr hk, fun L' hL' hf => ?_⟩
  · have hr := hw.inv.records L' record hrec
    refine { hr with
      before_le := hr.before_le.trans (Nat.le_succ _)
      base := fun ho => ?_
      evidence := fun p hp => (hr.evidence p hp).mutate }
    rw [hbase]
    rw [hours L' ho] at hrec
    exact hw.backed.same record hrec
  · rw [hours L' ho]
    exact .inr hk
  · have hf' := hw.fresh L' hL' hf
    exact ⟨hf'.live, hf'.record, hf'.confirmed, fun ho => hL' (hours L' ho), hf'.removals⟩

/-- A mutation for a known lease whose live record is not blocked is accounted for. -/
lemma Accounted.mutate {old : FakeState} (hL : cause.lease = L) (hw : Working r i L b c₀ c) :
    Accounted i c (c.mutate cause old new now) where
  mutation m L' live hlock hlive hb cause' old' new' time h := by
    simp only [Cell.mutate, List.cons.injEq, Event.mutated.injEq, and_true] at h
    rintro rfl
    rw [← h.1, hL] at hlock hlive
    rw [hw.unblocked m live hlock hlive] at hb
    exact absurd hb (by simp)
  release := (Accounted.refl i c).release
  fresh L' hL' h := by
    refine ⟨h.live, h.record, h.confirmed, fun ho => ?_, h.removals⟩
    rw [Ours, Cell.mutate, hL, Writer.engine.injEq] at ho
    subst ho
    exact hw.known.not_fresh hL' h
  lock := rfl
  active := rfl

end Mutate

/-! ## Guarded mutations -/

/-- What an attempt to replace `expected` by `new` leaves: nothing happened, or the mutation was
made and the attempt reports what it produced. -/
def Attempted (r : ResourceId) (i : SessionId) (L : LeaseId) (b : FakeState) (c₀ c : Cell)
    (new : FakeState) (answer : MutationAttempt FakeSnapshotData) (d : Cell) : Prop :=
  (Interference c d ∧ ((∃ error, answer = .rejected error) ∨
      ∃ error, answer = .indeterminate error none)) ∨
    (Working r i L b c₀ d ∧ (∀ p, Issued r L b p c → Issued r L b p d) ∧
      ∃ q, Issued r L b q d ∧ Names r L q d ∧ q.data.state = new ∧
        (answer = .performed (some q) ∨ ∃ error, answer = .indeterminate error (some q)))

lemma Attempted.stable {new : FakeState} {answer : MutationAttempt FakeSnapshotData} :
    Stable interference (Attempted r i L b c₀ c new answer) := by
  rintro d e h (⟨hd, ha⟩ | ⟨hw, hi, q, hq, hn, hs⟩)
  · exact .inl ⟨interference.trans hd h, ha⟩
  · exact .inr ⟨Working.stable h hw, fun p hp => Issued.stable h (hi p hp), q,
      Issued.stable h hq, Names.stable h hn, hs⟩

/-- An attempt that is rejected before the backend is asked. -/
lemma sat_rejected {new : FakeState} {error : Error} (h : Interference c d) :
    EngineSat F i m r (pure (.rejected error)) (Attempted r i L b c₀ c new) d :=
  sat_pure Attempted.stable (.inl ⟨h, .inl ⟨error, rfl⟩⟩)

lemma Attempted.mutate {cause : Cause} {expected : FakeSnapshot} {new : FakeState}
    (now : Instant) {answer : MutationAttempt FakeSnapshotData} (hL : cause.lease = L)
    (hw : Working r i L b c₀ d) (hk : Kept L d) (he : Issued r L b expected d)
    (hs : d.snapshot r = some expected) (hcd : Interference c d)
    (ha : answer = .performed (some (d.produced r new)) ∨
      ∃ error, answer = .indeterminate error (some (d.produced r new))) :
    Attempted r i L b c₀ c new answer (d.mutate cause expected.data.state new now) :=
  .inr ⟨hw.mutate hL hk he hs, fun _ hp => (Issued.stable hcd hp).mutate, _, .produced hL,
    .produced, rfl, ha⟩

section Guarded

variable {cause : Cause} {identity : FakeResourceIdentity} {expected : FakeSnapshot}

/-- `apply_bound` over evidence of the lease. -/
lemma sat_applyBound {plan : NormalizedConfig} (hr : identity.resource = r)
    (hL : cause.lease = L) (hw : Working r i L b c₀ c) (hk : Kept L c)
    (he : Issued r L b expected c) :
    EngineSat F i m r (applyBound (fakeBackend caps) cause identity expected plan)
      (Attempted r i L b c₀ c (mergeState expected.data.state plan)) c := by
  unfold applyBound
  refine sat_status hr hw.inv fun d answer hd => ?_
  match answer with
  | .error error => exact sat_rejected hd
  | .ok .gone => exact sat_rejected hd
  | .ok .replaced => exact sat_rejected hd
  | .ok .ambiguous => exact sat_rejected hd
  | .ok .same =>
      simp only [fakeBackend_mutationGuard, hr]
      intro e hde answer u hu
      have hce := interference.trans hd hde
      have hwe := Working.stable hce hw
      rcases Cell.engineHandler_applyGuarded hu he.of with
        ⟨rfl, ha, -⟩ | ⟨now, new, rfl, hs, rfl, ha⟩
      · exact ⟨⟨hwe.inv, .refl ..⟩, sat_pure Attempted.stable (.inl ⟨hce, ha⟩)⟩
      · have hdone := Attempted.mutate now hL hwe (Kept.stable hce hk)
          (Issued.stable hce he) hs hce (ha.imp id And.left)
        refine ⟨⟨?_, .mutate hL hwe⟩, sat_pure Attempted.stable hdone⟩
        exact (hwe.mutate hL (Kept.stable hce hk) (Issued.stable hce he) hs).inv

/-- `restore_bound` over evidence of the lease. -/
lemma sat_restoreBound {target : FakeSnapshot} (hr : identity.resource = r)
    (hL : cause.lease = L) (hw : Working r i L b c₀ c) (he : Issued r L b expected c)
    (hk : c.snapshot r = some expected → Kept L c) (ht : target.Of r) :
    EngineSat F i m r (restoreBound (fakeBackend caps) cause identity expected target)
      (Attempted r i L b c₀ c target.data.state) c := by
  unfold restoreBound
  refine sat_status hr hw.inv fun d answer hd => ?_
  match answer with
  | .error error => exact sat_rejected hd
  | .ok .gone => exact sat_rejected hd
  | .ok .replaced => exact sat_rejected hd
  | .ok .ambiguous => exact sat_rejected hd
  | .ok .same =>
      simp only [fakeBackend_mutationGuard, hr]
      intro e hde answer u hu
      have hce := interference.trans hd hde
      have hwe := Working.stable hce hw
      rcases Cell.engineHandler_restoreGuarded hu he.of ht with
        ⟨rfl, ha, -⟩ | ⟨now, hs, rfl, ha⟩
      · exact ⟨⟨hwe.inv, .refl ..⟩, sat_pure Attempted.stable (.inl ⟨hce, ha⟩)⟩
      · have hkept := Kept.stable hce (hk (hce.shift.snapshot he.generation_le hs).1)
        have hdone := Attempted.mutate now hL hwe hkept (Issued.stable hce he) hs hce
          (.inl ha)
        refine ⟨⟨?_, .mutate hL hwe⟩, sat_pure Attempted.stable hdone⟩
        exact (hwe.mutate hL hkept (Issued.stable hce he) hs).inv

end Guarded

/-! ## Compensation -/

/-- What a pending rollback for `L` is worth: its evidence is the latest, or, when there is none,
its target is. -/
structure RollbackOK (r : ResourceId) (L : LeaseId) (b : FakeState)
    (pending : PendingRollback FakeSnapshotData) (c : Cell) : Prop where
  target : Issued r L b pending.target c
  evidence : ∀ p, pending.evidence = some p → Issued r L b p c ∧ Names r L p c
  without : pending.evidence = none → Names r L pending.target c

lemma RollbackOK.shift {pending : PendingRollback FakeSnapshotData} (h : Shift c d)
    (hc : RollbackOK r L b pending c) : RollbackOK r L b pending d :=
  ⟨hc.target.shift h, fun p hp => ⟨(hc.evidence p hp).1.shift h, (hc.evidence p hp).2.shift h⟩,
    fun hn => (hc.without hn).shift h⟩

lemma RollbackOK.stable {pending : PendingRollback FakeSnapshotData} :
    Stable interference (RollbackOK r L b pending) := fun h hc => hc.shift h.shift

/-- The outcome of a rollback to `target`: the identity the lease now holds, if any, is its
latest evidence over the target's content; without one, the lease is not the last writer. -/
structure Settled (r : ResourceId) (L : LeaseId) (b : FakeState) (target : FakeSnapshot)
    (identity : Option FakeSnapshot) (c : Cell) : Prop where
  held : ∀ p, identity = some p →
    Issued r L b p c ∧ Names r L p c ∧ p.data.state = target.data.state
  lost : identity = none → ¬ Ours L c

lemma Settled.stable {target : FakeSnapshot} {identity : Option FakeSnapshot} :
    Stable interference (Settled r L b target identity) := fun h hc =>
  ⟨fun p hp =>
      ⟨Issued.stable h (hc.held p hp).1, Names.stable h (hc.held p hp).2.1, (hc.held p hp).2.2⟩,
    fun hn => not_ours_stable h (hc.lost hn)⟩

/-- After a settled rollback the lease is the last writer only over the target's content. -/
lemma Settled.state {target : FakeSnapshot} {identity : Option FakeSnapshot}
    (h : Settled r L b target identity c) (ho : Ours L c) :
    c.state = some target.data.state := by
  cases hi : identity with
  | none => exact absurd ho (h.lost hi)
  | some p =>
      obtain ⟨-, hn, hs⟩ := h.held p hi
      rw [← hs]
      exact (Cell.snapshot_eq_some (hn ho)).2.1

/-- What `compensate` establishes, whatever it answers. -/
structure Compensated (r : ResourceId) (i : SessionId) (L : LeaseId) (b : FakeState) (c₀ : Cell)
    (target : FakeSnapshot)
    (answer : Except Error (Option FakeSnapshot) × PendingRollback FakeSnapshotData)
    (c : Cell) : Prop where
  working : Working r i L b c₀ c
  rollback : RollbackOK r L b answer.2 c
  target_eq : answer.2.target = target
  settled : ∀ identity, answer.1 = .ok identity → Settled r L b target identity c

lemma Compensated.stable {target : FakeSnapshot}
    {answer : Except Error (Option FakeSnapshot) × PendingRollback FakeSnapshotData} :
    Stable interference (Compensated r i L b c₀ target answer) := fun h hc =>
  ⟨Working.stable h hc.working, RollbackOK.stable h hc.rollback, hc.target_eq,
    fun identity hi => Settled.stable h (hc.settled identity hi)⟩

section Compensate

variable {pending : PendingRollback FakeSnapshotData} {current target : FakeSnapshot}

/-- A call that changes nothing and fails keeps the rollback it was given. -/
lemma sat_compensate_error {error : Error} (hw : Working r i L b c₀ c)
    (hp : RollbackOK r L b pending c) :
    EngineSat F i m r (pure (.error error, pending))
      (Compensated r i L b c₀ pending.target) c :=
  sat_pure Compensated.stable ⟨hw, hp, rfl, fun _ h => absurd h (by simp)⟩

/-- The evidence of a rollback over a state read back with the target's content. -/
lemma RollbackOK.settled_evidence (hp : RollbackOK r L b pending c)
    (hs : c.snapshot r = some current)
    (he : (fakeBackend caps).equivalent current pending.target = true) {proof : FakeSnapshot}
    (hf : pending.evidence.filter ((fakeBackend caps).ownsCurrent · current) = some proof) :
    Settled r L b pending.target (some proof) c := by
  have hof := (Cell.snapshot_eq_some hs).1
  rw [Option.filter_eq_some_iff, fakeBackend_ownsCurrent] at hf
  obtain ⟨hi, hn⟩ := hp.evidence proof hf.1
  rw [fakeBackend_equivalent hof hp.target.of] at he
  refine ⟨fun p hp' => ?_, fun h => absurd h (by simp)⟩
  obtain rfl := Option.some.inj hp'
  obtain rfl := (fakeBackend_provesCurrent hi.of hof).mp hf.2
  exact ⟨hi, hn, he⟩

/-- A rollback whose evidence does not own the state read back. -/
lemma RollbackOK.not_ours (hp : RollbackOK r L b pending c) (hs : c.snapshot r = some current)
    (hf : pending.evidence.filter ((fakeBackend caps).ownsCurrent · current) = none)
    (ht : pending.evidence = none → (fakeBackend caps).ownsCurrent pending.target current = false) :
    ¬ Ours L c := by
  have hof := (Cell.snapshot_eq_some hs).1
  intro ho
  cases he : pending.evidence with
  | none =>
      have hcur := hp.without he ho
      rw [hs, Option.some.injEq] at hcur
      have := ht he
      rw [fakeBackend_ownsCurrent, ← Bool.not_eq_true,
        fakeBackend_provesCurrent hp.target.of hof] at this
      exact this hcur.symm
  | some p =>
      obtain ⟨hi, hn⟩ := hp.evidence p he
      have hcur := hn ho
      rw [hs, Option.some.injEq] at hcur
      rw [he, Option.filter_eq_none_iff] at hf
      exact hf p rfl ((fakeBackend_provesCurrent hi.of hof).mpr hcur.symm)

/-- The state read back has the target's content: the rollback is settled without a write. -/
lemma RollbackOK.settled_target (hp : RollbackOK r L b pending c)
    (hs : c.snapshot r = some current)
    (hf : pending.evidence.filter ((fakeBackend caps).ownsCurrent · current) = none) :
    Settled r L b pending.target
      (if (fakeBackend caps).ownsCurrent pending.target current then some pending.target
        else none) c := by
  have hof := (Cell.snapshot_eq_some hs).1
  split
  · rename_i ho
    rw [fakeBackend_ownsCurrent, fakeBackend_provesCurrent hp.target.of hof] at ho
    refine ⟨fun p hp' => ?_, fun h => absurd h (by simp)⟩
    obtain rfl := Option.some.inj hp'
    exact ⟨hp.target, fun _ => by rw [hs, ho], rfl⟩
  · rename_i ho
    exact ⟨fun p hp' => absurd hp' (by simp),
      fun _ => hp.not_ours hs hf fun _ => by simpa using ho⟩

/-- `verify_compensation` after a restore that produced `q`. -/
lemma sat_verifyCompensation {identity : FakeResourceIdentity} {q : FakeSnapshot}
    (hr : identity.resource = r) (hw : Working r i L b c₀ c)
    (hp : RollbackOK r L b ⟨some q, target⟩ c) :
    EngineSat F i m r (verifyCompensation (fakeBackend caps) identity ⟨some q, target⟩).run
      (fun answer => Compensated r i L b c₀ target (answer, ⟨some q, target⟩)) c := by
  have hfail : ∀ {d : Cell} (error : Error), Working r i L b c₀ d →
      RollbackOK r L b ⟨some q, target⟩ d →
      EngineSat F i m r (pure (.error error))
        (fun answer => Compensated r i L b c₀ target (answer, ⟨some q, target⟩)) d :=
    fun error hw hp => sat_pure Compensated.stable
      ⟨hw, hp, rfl, fun _ h => absurd h (by simp)⟩
  refine sat_readback hr hw.inv fun d answer hd hread => ?_
  have hw := Working.stable hd hw
  have hp := RollbackOK.stable hd hp
  match answer with
  | .error error => exact hfail error hw hp
  | .ok now =>
  have hs := hread now rfl
  refine sat_status hr hw.inv fun e answer he => ?_
  have hwe := Working.stable he hw
  have hpe := RollbackOK.stable he hp
  match answer with
  | .error error => exact hfail error hwe hpe
  | .ok status =>
  dsimp only [ExceptT.bindCont]
  split
  · exact hfail _ hwe hpe
  rename_i hgood
  have heq : (fakeBackend caps).equivalent now target = true := by
    simpa using (not_or.mp hgood).2
  cases hf : Option.filter ((fakeBackend caps).ownsCurrent · now) (some q) with
  | none =>
      have hlost : ¬ Ours L e := not_ours_stable he (hp.not_ours hs hf fun h => absurd h (by simp))
      refine sat_pure Compensated.stable ⟨hwe, hpe, rfl, fun identity h => ?_⟩
      obtain rfl := Except.ok.inj h
      exact ⟨fun p h => absurd h (by simp), fun _ => hlost⟩
  | some proof =>
      refine sat_pure Compensated.stable ⟨hwe, hpe, rfl, fun identity h => ?_⟩
      obtain rfl := Except.ok.inj h
      exact Settled.stable he (hp.settled_evidence hs heq hf)

/-- `compensate` changes the native state only over the evidence it was given. -/
lemma sat_compensate {identity : FakeResourceIdentity} {afterRestore : Option TxPoint}
    (hr : identity.resource = r) (hw : Working r i L b c₀ c) (hp : RollbackOK r L b pending c)
    (hk : ∀ p, pending.evidence = some p → c.snapshot r = some p → Kept L c) :
    EngineSat F i m r (compensate (fakeBackend caps) L identity pending afterRestore)
      (Compensated r i L b c₀ pending.target) c := by
  unfold compensate
  refine sat_status hr hw.inv fun d answer hd => ?_
  have hwd := Working.stable hd hw
  have hpd := RollbackOK.stable hd hp
  match answer with
  | .error error => exact sat_compensate_error hwd hpd
  | .ok status =>
  dsimp only
  split
  · exact sat_compensate_error hwd hpd
  refine sat_readback hr hwd.inv fun e answer he hread => ?_
  have hce := interference.trans hd he
  have hwe := Working.stable he hwd
  have hpe := RollbackOK.stable he hpd
  match answer with
  | .error error => exact sat_compensate_error hwe hpe
  | .ok current =>
  have hs := hread current rfl
  have hof := (Cell.snapshot_eq_some hs).1
  dsimp only
  split
  · rename_i heq
    cases hf : pending.evidence.filter ((fakeBackend caps).ownsCurrent · current) with
    | some proof =>
        exact sat_pure Compensated.stable ⟨hwe, hpe, rfl, fun identity h => by
          obtain rfl := Except.ok.inj h
          exact hpe.settled_evidence hs heq hf⟩
    | none =>
        exact sat_pure Compensated.stable ⟨hwe, hpe, rfl, fun identity h => by
          obtain rfl := Except.ok.inj h
          exact hpe.settled_target hs hf⟩
  rename_i hne
  cases hev : pending.evidence with
  | none => exact sat_compensate_error hwe hpe
  | some proof =>
  have hpi := (hpe.evidence proof hev).1
  dsimp only
  split
  · exact sat_compensate_error hwe hpe
  rename_i hown
  simp only [fakeBackend_ownsCurrent, Bool.not_eq_false,
    fakeBackend_provesCurrent hpi.of hof] at hown
  subst hown
  have hkept : Kept L e := Kept.stable hce
    (hk proof hev (hce.shift.snapshot (hp.evidence proof hev).1.generation_le hs).1)
  refine sat_bind (sat_restoreBound hr rfl hwe hpi (fun _ => hkept) hpe.target.of)
    fun answer u hu => ?_
  rcases hu with ⟨hu, ⟨error, rfl⟩ | ⟨error, rfl⟩⟩ | ⟨hwu, hkeep, q, hq, hn, hqs, ha⟩
  · exact sat_compensate_error (Working.stable hu hwe) (RollbackOK.stable hu hpe)
  · exact sat_compensate_error (Working.stable hu hwe) (RollbackOK.stable hu hpe)
  have hpu : RollbackOK r L b { pending with evidence := some q } u :=
    ⟨hkeep _ hpe.target, fun p h => by obtain rfl := Option.some.inj h; exact ⟨hq, hn⟩,
      fun h => absurd h (by simp)⟩
  have hverify : ∀ {v}, Interference u v → EngineSat F i m r
      (do return (← (verifyCompensation (fakeBackend caps) identity
        { pending with evidence := some q }).run, { pending with evidence := some q }))
      (Compensated r i L b c₀ pending.target) v := fun hv =>
    sat_bind (sat_verifyCompensation hr (Working.stable hv hwu) (RollbackOK.stable hv hpu))
      fun answer _ h => sat_pure Compensated.stable h
  rcases ha with rfl | ⟨error, rfl⟩
  · cases afterRestore with
    | none => exact hverify (interference.refl u)
    | some point =>
        refine sat_fire hwu.inv fun v answer hv _ => ?_
        match answer with
        | .error error =>
            exact sat_compensate_error (Working.stable hv hwu) (RollbackOK.stable hv hpu)
        | .ok _ => exact hverify hv
  · exact sat_compensate_error hwu hpu

/-! ## Mutation -/

/-- What a failed mutation over `expected` leaves. -/
def Residue (r : ResourceId) (L : LeaseId) (b : FakeState) (expected : FakeSnapshot)
    (residue : MutationResidue FakeSnapshotData) (c : Cell) : Prop :=
  match residue with
  | .unchanged => Names r L expected c
  | .restored identity => Settled r L b expected identity c
  | .pending pending => RollbackOK r L b pending c ∧ pending.target = expected

lemma Residue.stable {expected : FakeSnapshot} {residue : MutationResidue FakeSnapshotData} :
    Stable interference (Residue r L b expected residue) := fun h hc => by
  cases residue with
  | unchanged => exact Names.stable h hc
  | restored identity => exact Settled.stable h hc
  | pending pending => exact ⟨RollbackOK.stable h hc.1, hc.2⟩

/-- `rollback_proven` over the latest evidence. -/
lemma sat_rollbackProven {identity : FakeResourceIdentity} {proof : Option FakeSnapshot}
    (hr : identity.resource = r) (hw : Working r i L b c₀ c) (hk : Kept L c)
    (hp : RollbackOK r L b ⟨proof, target⟩ c) :
    EngineSat F i m r (rollbackProven (fakeBackend caps) L identity proof target)
      (fun residue d => Working r i L b c₀ d ∧ Residue r L b target residue d ∧
        residue ≠ .unchanged) c := by
  have hstable : ∀ residue, Stable interference fun d => Working r i L b c₀ d ∧
      Residue r L b target residue d ∧ residue ≠ .unchanged := fun residue _ _ h hc =>
    ⟨Working.stable h hc.1, Residue.stable h hc.2.1, hc.2.2⟩
  unfold rollbackProven
  refine sat_bind (sat_compensate hr hw hp fun _ _ _ => hk) fun answer d hd => ?_
  match answer with
  | (.ok restored, pending) =>
      exact sat_pure (hstable _) ⟨hd.working, hd.settled restored rfl, by simp⟩
  | (.error error, pending) =>
      exact sat_pure (hstable _) ⟨hd.working, ⟨hd.rollback, hd.target_eq⟩, by simp⟩

/-- A snapshot the lease wrote last, with content that expresses `plan`. -/
structure Expresses (r : ResourceId) (L : LeaseId) (b : FakeState) (plan : NormalizedConfig)
    (p : FakeSnapshot) (c : Cell) : Prop where
  issued : Issued r L b p c
  names : Names r L p c
  expresses : stateMatches p.data.state plan = true

lemma Expresses.shift {plan : NormalizedConfig} {p : FakeSnapshot} (h : Shift c d)
    (hc : Expresses r L b plan p c) : Expresses r L b plan p d :=
  ⟨hc.issued.shift h, hc.names.shift h, hc.expresses⟩

lemma Expresses.stable {plan : NormalizedConfig} {p : FakeSnapshot} :
    Stable interference (Expresses r L b plan p) := fun h hc => hc.shift h.shift

/-- What `mutate_and_verify` over `expected` establishes. -/
def Mutated (r : ResourceId) (i : SessionId) (L : LeaseId) (b : FakeState) (c₀ : Cell)
    (expected : FakeSnapshot) (plan : NormalizedConfig)
    (answer : Except (MutationFailure FakeSnapshotData) (VerifiedMutation FakeSnapshotData))
    (c : Cell) : Prop :=
  Working r i L b c₀ c ∧
    match answer with
    | .ok mutation => Expresses r L b plan mutation.persist c
    | .error failure => Residue r L b expected failure.residue c

lemma Mutated.stable {expected : FakeSnapshot} {plan : NormalizedConfig}
    {answer : Except (MutationFailure FakeSnapshotData) (VerifiedMutation FakeSnapshotData)} :
    Stable interference (Mutated r i L b c₀ expected plan answer) := fun h hc => by
  refine ⟨Working.stable h hc.1, ?_⟩
  have h₂ := hc.2
  cases answer with
  | ok mutation => exact Expresses.stable h h₂
  | error failure => exact Residue.stable h h₂

section Mutate

variable {identity : FakeResourceIdentity} {expected : FakeSnapshot} {plan : NormalizedConfig}

/-- The way out of `mutate_and_verify`. -/
lemma sat_failMutation {proof : Option FakeSnapshot} {error : Error} (hr : identity.resource = r)
    (hw : Working r i L b c₀ c) (hk : Kept L c) (hp : RollbackOK r L b ⟨proof, expected⟩ c) :
    EngineSat F i m r (failMutation (fakeBackend caps) L identity expected proof error)
      (Mutated r i L b c₀ expected plan) c :=
  sat_bind (sat_rollbackProven hr hw hk hp) fun _ _ h =>
    sat_pure Mutated.stable ⟨h.1, h.2.1⟩

/-- `mutate_and_verify` over the latest evidence of the lease. -/
lemma sat_mutateAndVerify {cause : Cause} {points : MutatePoints} (hr : identity.resource = r)
    (hL : cause.lease = L) (hw : Working r i L b c₀ c) (hk : Kept L c)
    (he : Issued r L b expected c) (hn : Names r L expected c) :
    EngineSat F i m r (mutateAndVerify (fakeBackend caps) cause identity expected plan points)
      (Mutated r i L b c₀ expected plan) c := by
  subst hL
  unfold mutateAndVerify
  refine sat_bind (sat_applyBound hr rfl hw hk he) fun answer d hd => ?_
  rcases hd with ⟨hd, ⟨error, rfl⟩ | ⟨error, rfl⟩⟩ | ⟨hwd, hkeep, q, hq, hqn, hqs, ha⟩
  · exact sat_pure Mutated.stable ⟨Working.stable hd hw, Names.stable hd hn⟩
  · exact sat_failMutation hr (Working.stable hd hw) (Kept.stable hd hk)
      ⟨Issued.stable hd he, fun p h => absurd h (by simp), fun _ => Names.stable hd hn⟩
  have hkd : Kept cause.lease d := hwd.memory.kept (hw.memory.symm.kept hk)
  have hfail : ∀ {e : Cell} (error : Error), Interference d e →
      EngineSat F i m r (failMutation (fakeBackend caps) cause.lease identity expected (some q)
        error) (Mutated r i cause.lease b c₀ expected plan) e := fun error h =>
    sat_failMutation hr (Working.stable h hwd) (Kept.stable h hkd)
      ⟨Issued.stable h (hkeep _ he), fun p hp => by
        obtain rfl := Option.some.inj hp
        exact ⟨Issued.stable h hq, Names.stable h hqn⟩, fun h => absurd h (by simp)⟩
  have hmatch : stateMatches q.data.state plan = true := by simp [hqs]
  rcases ha with rfl | ⟨error, rfl⟩
  swap
  · exact hfail error (interference.refl d)
  refine sat_fire hwd.inv fun e₁ answer h₁ _ => ?_
  match answer with
  | .error error => exact hfail error h₁
  | .ok _ =>
  refine sat_status hr (CellInv.stable h₁ hwd.inv) fun e₂ answer h₂ => ?_
  replace h₂ := interference.trans h₁ h₂
  match answer with
  | .error error => exact hfail error h₂
  | .ok status =>
  dsimp only
  split
  · exact hfail _ h₂
  refine sat_readback hr (CellInv.stable h₂ hwd.inv) fun e₃ answer h₃ hread => ?_
  replace h₃ := interference.trans h₂ h₃
  match answer with
  | .error error => exact hfail error h₃
  | .ok actual =>
  refine sat_fire (CellInv.stable h₃ hwd.inv) fun e₄ answer h₄ _ => ?_
  replace h₄ := interference.trans h₃ h₄
  match answer with
  | .error error => exact hfail error h₄
  | .ok _ =>
  dsimp only
  split
  · exact hfail _ h₄
  refine sat_status hr (CellInv.stable h₄ hwd.inv) fun e₅ answer h₅ => ?_
  replace h₅ := interference.trans h₄ h₅
  match answer with
  | .error error => exact hfail error h₅
  | .ok status =>
  dsimp only
  split
  · exact hfail _ h₅
  refine sat_fire (CellInv.stable h₅ hwd.inv) fun e₆ answer h₆ _ => ?_
  replace h₆ := interference.trans h₅ h₆
  match answer with
  | .error error => exact hfail error h₆
  | .ok _ =>
  simp only [fakeBackend_ownershipIdentity]
  split
  · exact hfail _ h₆
  · exact sat_pure Mutated.stable ⟨Working.stable h₆ hwd,
      Issued.stable h₆ hq, Names.stable h₆ hqn, hmatch⟩

end Mutate

end Compensate

end Osdns
