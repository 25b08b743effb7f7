import Osdns.Model.World

/-!
# One resource under a serial discipline

When the operations on a resource run one at a time, a program that works on it sees its cell
change only by its own calls and by what others do to the native state.  This module states
that view: `Interference` is what others may do, `Cell.handler r` is what a call may answer and
do as far as the cell of `r` is concerned.  A call on another resource leaves the cell alone and
is answered in any way.

Programs over several resources are judged one resource at a time: everything below fixes `r`.
-/

namespace Osdns

open Interaction

variable {r : ResourceId} {c d : Cell}

/-! ## Interference -/

/-- What others may do to the native state between two calls: nothing, or external changes, after
which the last writer is external and no earlier snapshot of a present state is current. -/
def NativeShift (c d : Cell) : Prop :=
  (d.state = c.state ∧ d.generation = c.generation ∧ d.writer = c.writer) ∨
    (d.writer = .external ∧ c.generation ≤ d.generation ∧
      (d.state = none ∨ c.generation < d.generation))

/-- External changes: journal, live records and what is recorded besides are as before. -/
structure Drift (c d : Cell) : Prop where
  journal : d.journal = c.journal
  live : d.live = c.live
  base : d.base = c.base
  removals : d.removals = c.removals
  confirmed : d.confirmed = c.confirmed
  native : NativeShift c d

/-- What others may do to a cell whose resource is being worked on. -/
structure Interference (c d : Cell) : Prop extends Drift c d where
  lock : d.lock = c.lock
  active : d.active = c.active

lemma NativeShift.refl (c : Cell) : NativeShift c c := .inl ⟨rfl, rfl, rfl⟩

lemma NativeShift.trans {e : Cell} (h₁ : NativeShift c d) (h₂ : NativeShift d e) :
    NativeShift c e := by
  unfold NativeShift at *
  rcases h₁ with ⟨hs, hg, hw⟩ | ⟨hw, hg, hs⟩ <;> rcases h₂ with ⟨hs', hg', hw'⟩ | ⟨hw', hg', hs'⟩
  · exact .inl ⟨hs'.trans hs, hg'.trans hg, hw'.trans hw⟩
  · exact .inr ⟨hw', by omega, hs'.imp id (by omega)⟩
  · exact .inr ⟨hw'.trans hw, by omega, by rw [hs']; exact hs.imp id (by omega)⟩
  · exact .inr ⟨hw', by omega, hs'.imp id (by omega)⟩

lemma Drift.refl (c : Cell) : Drift c c := ⟨rfl, rfl, rfl, rfl, rfl, .refl c⟩

lemma Drift.trans {e : Cell} (h₁ : Drift c d) (h₂ : Drift d e) : Drift c e :=
  ⟨h₂.journal.trans h₁.journal, h₂.live.trans h₁.live, h₂.base.trans h₁.base,
    h₂.removals.trans h₁.removals, h₂.confirmed.trans h₁.confirmed, h₁.native.trans h₂.native⟩

/-- Interference as a rely. -/
def interference : Rely Cell where
  rel := Interference
  refl c := ⟨.refl c, rfl, rfl⟩
  trans h₁ h₂ :=
    ⟨h₁.toDrift.trans h₂.toDrift, h₂.lock.trans h₁.lock, h₂.active.trans h₁.active⟩

/-- A cell that differs by external changes as far as evidence is concerned. -/
structure Shift (c d : Cell) : Prop where
  base : d.base = c.base
  native : NativeShift c d

lemma Shift.refl (c : Cell) : Shift c c := ⟨rfl, .refl c⟩

lemma Shift.trans {e : Cell} (h₁ : Shift c d) (h₂ : Shift d e) : Shift c e :=
  ⟨h₂.base.trans h₁.base, h₁.native.trans h₂.native⟩

lemma Drift.shift (h : Drift c d) : Shift c d := ⟨h.base, h.native⟩

lemma Drift.record (h : Drift c d) (lease : LeaseId) : d.record lease = c.record lease := by
  rw [Cell.record, Cell.record, h.journal]

namespace Shift

lemma generation_le (h : Shift c d) : c.generation ≤ d.generation := by
  rcases h.native with ⟨-, hg, -⟩ | ⟨-, hg, -⟩ <;> omega

/-- A lease that is the last writer after a shift was so before, over the same state. -/
lemma engine (h : Shift c d) {lease : LeaseId} (hd : d.writer = .engine lease) :
    c.writer = .engine lease ∧ d.state = c.state ∧ d.generation = c.generation := by
  rcases h.native with ⟨hs, hg, hw⟩ | ⟨hw, -, -⟩
  · exact ⟨hw ▸ hd, hs, hg⟩
  · rw [hw] at hd
    exact absurd hd (by simp)

/-- A snapshot of the past that is current after a shift was current throughout. -/
lemma snapshot (h : Shift c d) {p : FakeSnapshot}
    (hp : p.data.generation ≤ c.generation) (hd : d.snapshot r = some p) :
    c.snapshot r = some p ∧ d.writer = c.writer := by
  rcases h.native with ⟨hs, hg, hw⟩ | ⟨-, hg, hs⟩
  · exact ⟨by simpa only [Cell.snapshot, hs, hg] using hd, hw⟩
  · simp only [Cell.snapshot, Option.map_eq_some_iff] at hd
    obtain ⟨state, hstate, rfl⟩ := hd
    rcases hs with hs | hs
    · rw [hs] at hstate
      exact absurd hstate (by simp)
    · exact absurd hp (by simp only [not_le]; exact hs)

end Shift

/-! ## Calls as seen from one cell -/

abbrev FakeLiveState := LiveState FakeSnapshotData FakeIdentity

/-- A record of the lease `L` on the resource `r`. -/
structure JournalRecord.On (r : ResourceId) (L : LeaseId) (record : FakeRecord) : Prop where
  lease : record.leaseId = L
  resource : record.resource = r
  identity : record.identity.resource = r

def LiveState.On (r : ResourceId) (L : LeaseId) : FakeLiveState → Prop
  | .compensating _ resume => resume.On r L
  | .repair next => next.On r L
  | _ => True

/-- A live record of the lease `L` on the resource `r`. -/
structure LiveRecord.On (r : ResourceId) (L : LeaseId) (live : FakeLive) : Prop where
  record : live.record.On r L
  state : live.state.On r L

/-- Answers name the resources they are about. -/
def Named : (o : EngineOp FakeSnapshotData FakeIdentity) →
    EngineRet FakeSnapshotData FakeIdentity o → Prop
  | .liveGet ref, answer => answer.On ref.resource ref.lease
  | .observe resource, answer =>
      ∀ observation, answer = .ok observation → observation.identity.resource = resource
  | .journalRecords, answer =>
      ∀ records, answer = .ok records → (records.map (·.resource)).Nodup ∧
        ∀ record ∈ records, record.identity.resource = record.resource
  | _, _ => True

/-- The same for the calls of a manager; a scope never resolves to a resource twice. -/
def ManagerNamed : (o : ManagerOp FakeSnapshotData FakeIdentity) →
    ManagerRet FakeSnapshotData FakeIdentity o → Prop
  | .engine o, answer => Named o answer
  | .resolveResources _ _, answer => ∀ resources, answer = .ok resources → resources.Nodup
  | _, _ => True

/-- Answers to calls that are not about this resource.  Of what others do, only the journal's
listing and the fixed answers matter here. -/
def Elsewhere (F : Faults) (i : SessionId) (r : ResourceId) (c : Cell)
    (o : ManagerOp FakeSnapshotData FakeIdentity)
    (answer : ManagerRet FakeSnapshotData FakeIdentity o) : Prop :=
  ManagerNamed o answer ∧
    match o, answer with
    | .engine (.fire point), answer => answer = .ok () ∨ F (.engine (.fire point))
    | .engine .newLeaseId, answer => answer = i
    | .engine .journalRecords, answer =>
        ∀ records, answer = .ok records →
          ∀ record ∈ records, record.resource = r → c.record record.leaseId = some record
    | _, _ => True

/-- What a call of session `i` of manager `m` may answer and do to the cell of `r`. -/
def Cell.handler (F : Faults) (i : SessionId) (m : ManagerId) (r : ResourceId) :
    Handler (ManagerRet FakeSnapshotData FakeIdentity) Cell :=
  fun o c answer d =>
    if o.target = some r then
      ∃ now token fate, (fate = .proceed ∨ F o) ∧
        c.exec r ⟨i, m, now, token⟩ fate o = some (answer, d)
    else d = { c with pending := d.pending } ∧ Elsewhere F i r c o answer

/-- The same for calls of the engine. -/
def Cell.engineHandler (F : Faults) (i : SessionId) (m : ManagerId) (r : ResourceId) :
    Handler (EngineRet FakeSnapshotData FakeIdentity) Cell :=
  fun o c answer d => Cell.handler F i m r (.engine o) c answer d

section Inversion

variable {F : Faults} {i : SessionId} {m : ManagerId}

/-- A call on this resource is executed on its cell. -/
lemma Cell.engineHandler_exec {o : EngineOp FakeSnapshotData FakeIdentity}
    {answer : EngineRet FakeSnapshotData FakeIdentity o}
    (h : Cell.engineHandler F i m r o c answer d) (ho : o.target = some r) :
    ∃ now token fate, (fate = .proceed ∨ F (.engine o)) ∧
      c.execEngine r ⟨i, m, now, token⟩ fate o = some (answer, d) := by
  unfold Cell.engineHandler Cell.handler at h
  rwa [if_pos (show (ManagerOp.engine o).target = some r from ho)] at h

/-- A call on another resource leaves the cell alone. -/
lemma Cell.handler_elsewhere {o : ManagerOp FakeSnapshotData FakeIdentity}
    {answer : ManagerRet FakeSnapshotData FakeIdentity o}
    (h : Cell.handler F i m r o c answer d) (ho : o.target ≠ some r) :
    d = { c with pending := d.pending } ∧ Elsewhere F i r c o answer := by
  unfold Cell.handler at h
  rwa [if_neg ho] at h

lemma Cell.engineHandler_status {site : Site} {identity : FakeResourceIdentity}
    {answer : Except Error ResourceStatus}
    (h : Cell.engineHandler F i m r (.resourceStatus site identity) c answer d)
    (hr : identity.resource = r) :
    d = c ∧ (answer = c.resourceStatus identity ∨
      (∃ message, answer = .error (Cell.injected message)) ∧
        F (.engine (.resourceStatus site identity))) := by
  obtain ⟨now, token, fate, hF, h⟩ := Cell.engineHandler_exec h (by simp [EngineOp.target, hr])
  cases fate <;> simp only [Cell.execEngine, Option.some.injEq, Prod.mk.injEq] at h <;>
    obtain ⟨rfl, rfl⟩ := h
  · exact ⟨rfl, .inl rfl⟩
  · exact ⟨rfl, .inr ⟨⟨_, rfl⟩, by simpa using hF⟩⟩
  · exact ⟨rfl, .inr ⟨⟨_, rfl⟩, by simpa using hF⟩⟩

lemma Cell.read_eq_ok {p : FakeSnapshot} (h : c.read r = .ok p) : c.snapshot r = some p := by
  unfold Cell.read at h
  split at h <;> simp_all

lemma Cell.engineHandler_readback {site : Site} {answer : Except Error FakeSnapshot}
    (h : Cell.engineHandler F i m r (.readback site r) c answer d) :
    d = c ∧ (answer = c.read r ∨ (∃ message, answer = .error (Cell.injected message)) ∧
      F (.engine (.readback site r))) := by
  obtain ⟨now, token, fate, hF, h⟩ := Cell.engineHandler_exec h rfl
  cases fate <;> simp only [Cell.execEngine, Option.some.injEq, Prod.mk.injEq] at h <;>
    obtain ⟨rfl, rfl⟩ := h
  · exact ⟨rfl, .inl rfl⟩
  · exact ⟨rfl, .inr ⟨⟨_, rfl⟩, by simpa using hF⟩⟩
  · exact ⟨rfl, .inr ⟨⟨_, rfl⟩, by simpa using hF⟩⟩

lemma Cell.engineHandler_readback_ok {site : Site} {p : FakeSnapshot}
    (h : Cell.engineHandler F i m r (.readback site r) c (.ok p) d) :
    c.snapshot r = some p := by
  obtain ⟨-, h | ⟨⟨_, h⟩, -⟩⟩ := Cell.engineHandler_readback h
  · exact Cell.read_eq_ok h.symm
  · exact absurd h (by simp)

lemma Cell.engineHandler_capture {answer : Except Error FakeSnapshot}
    (h : Cell.engineHandler F i m r (.capture r) c answer d) :
    d = c ∧ (answer = c.read r ∨ (∃ message, answer = .error (Cell.injected message)) ∧
      F (.engine (.capture r))) := by
  obtain ⟨now, token, fate, hF, h⟩ := Cell.engineHandler_exec h rfl
  cases fate <;> simp only [Cell.execEngine, Option.some.injEq, Prod.mk.injEq] at h <;>
    obtain ⟨rfl, rfl⟩ := h
  · exact ⟨rfl, .inl rfl⟩
  · exact ⟨rfl, .inr ⟨⟨_, rfl⟩, by simpa using hF⟩⟩
  · exact ⟨rfl, .inr ⟨⟨_, rfl⟩, by simpa using hF⟩⟩

/-- A bound observation binds the current incarnation to the current snapshot. -/
lemma Cell.engineHandler_observe
    {answer : Except Error (BoundObservation FakeSnapshotData FakeIdentity)}
    (h : Cell.engineHandler F i m r (.observe r) c answer d) :
    (∃ error, answer = .error error) ∧ d = c ∨
      ∃ p, c.snapshot r = some p ∧ answer = .ok ⟨⟨.fake, r, ⟨c.incarnation⟩⟩, p⟩ ∧
        d = { c with log := .captured i p.data :: c.log } := by
  obtain ⟨now, token, fate, hF, h⟩ := Cell.engineHandler_exec h rfl
  cases hs : c.snapshot r with
  | none =>
      cases fate <;> simp only [Cell.execEngine, hs, Option.some.injEq, Prod.mk.injEq] at h <;>
        obtain ⟨rfl, rfl⟩ := h <;> exact .inl ⟨⟨_, rfl⟩, rfl⟩
  | some p =>
      cases fate <;> simp only [Cell.execEngine, hs, Option.some.injEq, Prod.mk.injEq] at h <;>
        obtain ⟨rfl, rfl⟩ := h
      · exact .inr ⟨p, rfl, rfl, rfl⟩
      · exact .inl ⟨⟨_, rfl⟩, rfl⟩
      · exact .inl ⟨⟨_, rfl⟩, rfl⟩

/-- The current snapshot of a cell is of its resource and carries its state. -/
lemma Cell.snapshot_eq_some {p : FakeSnapshot} (h : c.snapshot r = some p) :
    p.Of r ∧ c.state = some p.data.state ∧ p.data.generation = c.generation := by
  simp only [Cell.snapshot, Option.map_eq_some_iff] at h
  obtain ⟨state, hs, rfl⟩ := h
  exact ⟨⟨rfl, rfl⟩, hs, rfl⟩

/-- A snapshot of this resource is current when state and generation agree. -/
lemma Cell.snapshot_of_data {p : FakeSnapshot} (hp : p.Of r) {state : FakeState}
    (hs : c.state = some state) (hd : p.data = ⟨state, c.generation⟩) : c.snapshot r = some p := by
  obtain ⟨pb, pr, pd⟩ := p
  obtain ⟨rfl, rfl⟩ := hp
  simp only at hd
  simp [Cell.snapshot, hs, hd]

/-- A guarded mutation does nothing, or replaces the snapshot it expected and reports what it
produced. -/
lemma Cell.engineHandler_applyGuarded {cause : Cause} {expected : FakeSnapshot}
    {plan : NormalizedConfig} {answer : MutationAttempt FakeSnapshotData}
    (h : Cell.engineHandler F i m r (.applyGuarded cause r expected plan) c answer d)
    (he : expected.Of r) :
    (d = c ∧ ((∃ error, answer = .rejected error) ∨ ∃ error, answer = .indeterminate error none) ∧
        (F (.engine (.applyGuarded cause r expected plan)) ∨ c.snapshot r ≠ some expected)) ∨
      ∃ now new, new = mergeState expected.data.state plan ∧ c.snapshot r = some expected ∧
        d = c.mutate cause expected.data.state new now ∧
        (answer = .performed (some (c.produced r new)) ∨
          (∃ error, answer = .indeterminate error (some (c.produced r new))) ∧
            F (.engine (.applyGuarded cause r expected plan))) := by
  obtain ⟨now, token, fate, hF, h⟩ := Cell.engineHandler_exec h rfl
  simp only [Cell.execEngine, Option.some.injEq] at h
  have hd := interpretFull_of he
  cases fate with
  | fail message =>
      simp only [Cell.applyGuarded, Prod.mk.injEq] at h
      obtain ⟨rfl, rfl⟩ := h
      exact .inl ⟨rfl, .inr ⟨_, rfl⟩, .inl (by simpa using hF)⟩
  | proceed =>
      cases hs : c.state with
      | none =>
          simp only [Cell.applyGuarded, hd, hs, Prod.mk.injEq] at h
          obtain ⟨rfl, rfl⟩ := h
          exact .inl ⟨rfl, .inr ⟨_, rfl⟩, .inr (by simp [Cell.snapshot, hs])⟩
      | some state =>
          simp only [Cell.applyGuarded, hd, hs] at h
          split at h
          · rename_i heq
            simp only [Prod.mk.injEq] at h
            obtain ⟨rfl, rfl⟩ := h
            refine .inr ⟨now, _, rfl, Cell.snapshot_of_data he hs heq, ?_, .inl ?_⟩ <;> rw [heq]
          · rename_i hne
            simp only [Prod.mk.injEq] at h
            obtain ⟨rfl, rfl⟩ := h
            refine .inl ⟨rfl, .inl ⟨_, rfl⟩, .inr fun hc => hne ?_⟩
            obtain ⟨-, hs', hg⟩ := Cell.snapshot_eq_some hc
            rw [hs, Option.some.injEq] at hs'
            rw [hs', ← hg]
  | failAfter message =>
      have hF : F (.engine (.applyGuarded cause r expected plan)) := by simpa using hF
      cases hs : c.state with
      | none =>
          simp only [Cell.applyGuarded, hd, hs, Prod.mk.injEq] at h
          obtain ⟨rfl, rfl⟩ := h
          exact .inl ⟨rfl, .inr ⟨_, rfl⟩, .inl hF⟩
      | some state =>
          simp only [Cell.applyGuarded, hd, hs] at h
          split at h
          · rename_i heq
            simp only [Prod.mk.injEq] at h
            obtain ⟨rfl, rfl⟩ := h
            refine .inr ⟨now, _, rfl, Cell.snapshot_of_data he hs heq, ?_, .inr ⟨?_, hF⟩⟩
            · rw [heq]
            · rw [heq]
              exact ⟨_, rfl⟩
          · simp only [Prod.mk.injEq] at h
            obtain ⟨rfl, rfl⟩ := h
            exact .inl ⟨rfl, .inl ⟨_, rfl⟩, .inl hF⟩

/-- A guarded restoration does nothing, or replaces the snapshot it expected. -/
lemma Cell.engineHandler_restoreGuarded {cause : Cause} {expected target : FakeSnapshot}
    {answer : MutationAttempt FakeSnapshotData}
    (h : Cell.engineHandler F i m r (.restoreGuarded cause r expected target) c answer d)
    (he : expected.Of r) (ht : target.Of r) :
    (d = c ∧ ((∃ error, answer = .rejected error) ∨ ∃ error, answer = .indeterminate error none) ∧
        (F (.engine (.restoreGuarded cause r expected target)) ∨ c.snapshot r ≠ some expected)) ∨
      ∃ now, c.snapshot r = some expected ∧
        d = c.mutate cause expected.data.state target.data.state now ∧
        answer = .performed (some (c.produced r target.data.state)) := by
  obtain ⟨now, token, fate, hF, h⟩ := Cell.engineHandler_exec h rfl
  simp only [Cell.execEngine, Option.some.injEq] at h
  cases fate with
  | fail message =>
      simp only [Cell.restoreGuarded, Prod.mk.injEq] at h
      obtain ⟨rfl, rfl⟩ := h
      exact .inl ⟨rfl, .inr ⟨_, rfl⟩, .inl (by simpa using hF)⟩
  | failAfter message =>
      simp only [Cell.restoreGuarded, Prod.mk.injEq] at h
      obtain ⟨rfl, rfl⟩ := h
      exact .inl ⟨rfl, .inr ⟨_, rfl⟩, .inl (by simpa using hF)⟩
  | proceed =>
      simp only [Cell.restoreGuarded, he.2, ht.2, ne_eq, not_true_eq_false, or_self, if_false,
        interpretFull_of he, interpretFull_of ht] at h
      cases hs : c.state with
      | none =>
          simp only [hs, Prod.mk.injEq] at h
          obtain ⟨rfl, rfl⟩ := h
          exact .inl ⟨rfl, .inr ⟨_, rfl⟩, .inr (by simp [Cell.snapshot, hs])⟩
      | some state =>
          simp only [hs] at h
          split at h
          · rename_i heq
            simp only [Prod.mk.injEq] at h
            obtain ⟨rfl, rfl⟩ := h
            refine .inr ⟨now, Cell.snapshot_of_data he hs heq, ?_, rfl⟩
            rw [heq]
          · rename_i hne
            simp only [Prod.mk.injEq] at h
            obtain ⟨rfl, rfl⟩ := h
            refine .inl ⟨rfl, .inl ⟨_, rfl⟩, .inr fun hc => hne ?_⟩
            obtain ⟨-, hs', hg⟩ := Cell.snapshot_eq_some hc
            rw [hs, Option.some.injEq] at hs'
            rw [hs', ← hg]

/-- A journal write succeeds and is confirmed, or fails with the record published or not. -/
lemma Cell.engineHandler_journalWrite {record : FakeRecord} {answer : Except Error Unit}
    (h : Cell.engineHandler F i m r (.journalWrite record) c answer d)
    (hr : record.resource = r) :
    (answer = .ok () ∧ d = { c.publish record with
        confirmed := Function.update c.confirmed record.leaseId (some record) }) ∨
      ((∃ error, answer = .error error) ∧ F (.engine (.journalWrite record)) ∧
        ∃ c', (c' = c ∨ c' = c.publish record) ∧
          d = { c' with confirmed := Function.update c.confirmed record.leaseId none }) := by
  obtain ⟨now, token, fate, hF, h⟩ := Cell.engineHandler_exec h (by simp [EngineOp.target, hr])
  cases fate <;> simp only [Cell.execEngine, Cell.journalWrite, Option.some.injEq,
    Prod.mk.injEq] at h <;> obtain ⟨rfl, rfl⟩ := h
  · exact .inl ⟨rfl, rfl⟩
  · exact .inr ⟨⟨_, rfl⟩, by simpa using hF, c, .inl rfl, rfl⟩
  · exact .inr ⟨⟨_, rfl⟩, by simpa using hF, _, .inr rfl, rfl⟩

/-- What a cell becomes when the removal of a record is attempted and leaves the given journal. -/
def Cell.attemptRemoval (c : Cell) (lease : LeaseId) (removal : Removal)
    (journal : AList (fun _ : LeaseId => FakeRecord)) : Cell :=
  { c with
    removals := (lease, removal) :: c.removals
    confirmed := Function.update c.confirmed lease none
    journal }

/-- A journal removal succeeds, or fails with the record removed or not. -/
lemma Cell.engineHandler_journalRemove {lease : LeaseId} {removal : Removal}
    {answer : Except Error Unit}
    (h : Cell.engineHandler F i m r (.journalRemove lease r removal) c answer d) :
    (answer = .ok () ∧ d = c.attemptRemoval lease removal (c.journal.erase lease)) ∨
      ((∃ error, answer = .error error) ∧ F (.engine (.journalRemove lease r removal)) ∧
        ∃ journal, (journal = c.journal ∨ journal = c.journal.erase lease) ∧
          d = c.attemptRemoval lease removal journal) := by
  obtain ⟨now, token, fate, hF, h⟩ := Cell.engineHandler_exec h rfl
  cases fate <;> simp only [Cell.execEngine, Cell.journalRemove, Option.some.injEq,
    Prod.mk.injEq] at h <;> obtain ⟨rfl, rfl⟩ := h
  · exact .inl ⟨rfl, rfl⟩
  · exact .inr ⟨⟨_, rfl⟩, by simpa using hF, _, .inl rfl, rfl⟩
  · exact .inr ⟨⟨_, rfl⟩, by simpa using hF, _, .inr rfl, rfl⟩

lemma Cell.engineHandler_liveGet {lease : LeaseId} {answer : FakeLive}
    (h : Cell.engineHandler F i m r (.liveGet ⟨lease, r⟩) c answer d) :
    d = c ∧ c.live lease = some answer := by
  obtain ⟨now, token, fate, hF, h⟩ := Cell.engineHandler_exec h rfl
  simp only [Cell.execEngine, Option.map_eq_some_iff] at h
  obtain ⟨live, hl, h⟩ := h
  simp only [Prod.mk.injEq] at h
  exact ⟨h.2.symm, h.1 ▸ hl⟩

lemma Cell.engineHandler_liveSet {lease : LeaseId} {live : FakeLive} {answer : Unit}
    (h : Cell.engineHandler F i m r (.liveSet ⟨lease, r⟩ live) c answer d) :
    d = { c with live := Function.update c.live lease (some live) } := by
  obtain ⟨now, token, fate, hF, h⟩ := Cell.engineHandler_exec h rfl
  simp only [Cell.execEngine, Option.some.injEq, Prod.mk.injEq] at h
  exact h.2.symm

lemma Cell.engineHandler_fire {point : TxPoint} {answer : Except Error Unit}
    (h : Cell.engineHandler F i m r (.fire point) c answer d) :
    d = { c with pending := d.pending } ∧ (answer = .ok () ∨ F (.engine (.fire point))) :=
  have he := Cell.handler_elsewhere h (by simp [ManagerOp.target, EngineOp.target])
  ⟨he.1, he.2.2⟩

end Inversion

end Osdns
