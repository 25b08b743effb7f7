import Osdns.Framework.Discipline
import Osdns.Serial.Cell

/-!
# Working for one lease

A function of the engine works for one lease, over the resources it is given: it calls on no other
resource, and every record it writes is a record of that lease.  `EngineFor L R` says so of a
program, as long as answers name the resources and leases they are about.

The listing of the journal is left out: it is about all resources, and only `apply` and the
recovery operations ask for it.
-/

namespace Osdns

open Interaction
open Interaction.Fallible (ask value attempt only_value only_bind)
open Engine

variable {L K : LeaseId} {R : ResourceId → Prop} {r : ResourceId} {α β : Type}

/-- The call is one for the lease `L` over resources in `R`. -/
structure EngineOp.For (L : LeaseId) (R : ResourceId → Prop)
    (o : EngineOp FakeSnapshotData FakeIdentity) : Prop where
  target : ∀ r, o.target = some r → R r
  writes : ∀ record, o = .journalWrite record → record.leaseId = L
  reads : ∀ ref, o = .liveGet ref → ref.lease = L
  listing : o ≠ .journalRecords

/-- The program makes calls for the lease `L` over resources in `R` only. -/
abbrev EngineFor (L : LeaseId) (R : ResourceId → Prop)
    (p : Engine FakeSnapshotData FakeIdentity α) : Prop :=
  p.Only Named (EngineOp.For L R)

/-! ## Rules -/

section Rules

variable {k : α → Engine FakeSnapshotData FakeIdentity β}

lemma EngineFor.bind {p : Engine FakeSnapshotData FakeIdentity α} (hp : EngineFor L R p)
    (hk : ∀ a, EngineFor L R (k a)) : EngineFor L R (p >>= k) :=
  Program.Only.bind hp hk

lemma EngineFor.value {p : Engine FakeSnapshotData FakeIdentity α}
    {k : α → EngineResult FakeSnapshotData FakeIdentity β} (hp : EngineFor L R p)
    (hk : ∀ a, EngineFor L R (k a).run) : EngineFor L R (Fallible.value p >>= k).run :=
  only_value hp hk

lemma EngineFor.run_bind {p : EngineResult FakeSnapshotData FakeIdentity α}
    {k : α → EngineResult FakeSnapshotData FakeIdentity β} (hp : EngineFor L R p.run)
    (hk : ∀ a, EngineFor L R (k a).run) : EngineFor L R (p >>= k).run :=
  only_bind hp hk

lemma EngineFor.run_seq {p : EngineResult FakeSnapshotData FakeIdentity α} {ψ : α → Prop}
    {k : α → EngineResult FakeSnapshotData FakeIdentity β} (hp : EngineFor L R p.run)
    (hψ : p.run.Yields Named fun answer => ∀ a, answer = .ok a → ψ a)
    (hk : ∀ a, ψ a → EngineFor L R (k a).run) : EngineFor L R (p >>= k).run := by
  refine Program.Only.seq hp hψ fun answer ha => ?_
  cases answer with
  | ok a => exact hk a (ha a rfl)
  | error error => trivial

end Rules

/-! ## Calls -/

section Calls

variable {identity : FakeResourceIdentity}

/-- A call about `r` that writes nothing to the journal. -/
lemma EngineOp.For.of_target {o : EngineOp FakeSnapshotData FakeIdentity} (ho : o.target = some r)
    (hr : R r) (hw : ∀ record, o ≠ .journalWrite record)
    (hl : ∀ ref, o = .liveGet ref → ref.lease = L) : o.For L R := by
  refine ⟨fun r' h => ?_, fun record h => absurd h (hw record), hl, ?_⟩
  · obtain rfl := Option.some.inj (ho.symm.trans h)
    exact hr
  · rintro rfl
    exact absurd ho (by simp [EngineOp.target])

lemma engineFor_status {site : Site} (hr : R identity.resource) :
    EngineFor L R (resourceStatus site identity) :=
  ⟨.of_target rfl hr (by simp) (by simp), fun _ _ => trivial⟩

lemma engineFor_readback (site : Site) (hr : R r) : EngineFor L R (readback site r) :=
  ⟨.of_target rfl hr (by simp) (by simp), fun _ _ => trivial⟩

lemma engineFor_capture (hr : R r) : EngineFor L R (capture r) :=
  ⟨.of_target rfl hr (by simp) (by simp), fun _ _ => trivial⟩

lemma engineFor_observe (hr : R r) : EngineFor L R (observe r) :=
  ⟨.of_target rfl hr (by simp) (by simp), fun _ _ => trivial⟩

lemma engineFor_fire (point : TxPoint) : EngineFor L R (fire point) :=
  ⟨⟨by simp [EngineOp.target], by simp, by simp, by simp⟩, fun _ _ => trivial⟩

lemma engineFor_journalWrite {record : FakeRecord} (hl : record.leaseId = L)
    (hr : R record.resource) : EngineFor L R (journalWrite record) := by
  refine ⟨⟨fun r h => ?_, fun x h => ?_, by simp, by simp⟩, fun _ _ => trivial⟩
  · obtain rfl := Option.some.inj h
    exact hr
  · obtain rfl := EngineOp.journalWrite.inj h
    exact hl

lemma engineFor_journalRemove (lease : LeaseId) (removal : Removal) (hr : R r) :
    EngineFor L R (journalRemove lease r removal) :=
  ⟨.of_target rfl hr (by simp) (by simp), fun _ _ => trivial⟩

lemma engineFor_liveSet (live : FakeLive) (hr : R r) : EngineFor L R (liveSet ⟨K, r⟩ live) :=
  ⟨.of_target rfl hr (by simp) (by simp), fun _ _ => trivial⟩

/-- The answer of `liveGet` is a live record of its lease and resource. -/
lemma engineFor_liveGet {k : FakeLive → Engine FakeSnapshotData FakeIdentity β} (hr : R r)
    (hk : ∀ live : FakeLive, live.On r L → EngineFor L R (k live)) :
    EngineFor L R (liveGet ⟨L, r⟩ >>= k) :=
  ⟨.of_target rfl hr (by simp) (by simp), fun live hlive => hk live hlive⟩

end Calls

/-! ## Mutation and compensation -/

section Mutation

variable (B : Backend FakeSnapshotData) {pending : PendingRollback FakeSnapshotData}
variable {identity : FakeResourceIdentity}

lemma engineFor_applyBound {cause : Cause} {expected : FakeSnapshot} {plan : NormalizedConfig}
    (hr : R identity.resource) : EngineFor L R (applyBound B cause identity expected plan) := by
  unfold applyBound
  refine (engineFor_status hr).bind fun answer => ?_
  split
  · trivial
  · split
    · exact ⟨.of_target rfl hr (by simp) (by simp), fun _ _ => trivial⟩
    · refine (engineFor_readback _ hr).bind fun answer => ?_
      split
      · trivial
      · split
        · refine (engineFor_status hr).bind fun answer => ?_
          split
          · exact ⟨.of_target rfl hr (by simp) (by simp), fun _ _ => trivial⟩
          · trivial
          · trivial
        · trivial
  · trivial

lemma engineFor_restoreBound {cause : Cause} {expected target : FakeSnapshot}
    (hr : R identity.resource) : EngineFor L R (restoreBound B cause identity expected target) := by
  unfold restoreBound
  refine (engineFor_status hr).bind fun answer => ?_
  split
  · trivial
  · split
    · exact ⟨.of_target rfl hr (by simp) (by simp), fun _ _ => trivial⟩
    · refine (engineFor_readback _ hr).bind fun answer => ?_
      split
      · trivial
      · split
        · refine (engineFor_status hr).bind fun answer => ?_
          split
          · refine ⟨.of_target rfl hr (by simp) (by simp), fun answer _ => ?_⟩
            cases answer <;> trivial
          · trivial
          · trivial
        · trivial
  · trivial

lemma engineFor_verifyCompensation (hr : R identity.resource) :
    EngineFor L R (verifyCompensation B identity pending).run := by
  unfold verifyCompensation
  refine EngineFor.run_bind (engineFor_readback _ hr) fun now => ?_
  refine EngineFor.run_bind (engineFor_status hr) fun status => ?_
  dsimp only
  split
  · trivial
  · split <;> trivial

lemma engineFor_compensate {afterRestore : Option TxPoint} (hr : R identity.resource) :
    EngineFor L R (compensate B K identity pending afterRestore) := by
  unfold compensate
  refine (engineFor_status hr).bind fun answer => ?_
  split
  · trivial
  split
  · trivial
  refine (engineFor_readback _ hr).bind fun answer => ?_
  split
  · trivial
  split
  · split <;> trivial
  split
  · trivial
  split
  · trivial
  refine (engineFor_restoreBound B hr).bind fun answer => ?_
  split
  · trivial
  · trivial
  · trivial
  · dsimp only
    split
    · exact (engineFor_verifyCompensation B hr).bind fun _ => trivial
    · refine (engineFor_fire _).bind fun answer => ?_
      split
      · trivial
      · exact (engineFor_verifyCompensation B hr).bind fun _ => trivial

lemma engineFor_rollbackProven {proof : Option FakeSnapshot} {target : FakeSnapshot}
    (hr : R identity.resource) : EngineFor L R (rollbackProven B K identity proof target) := by
  refine (engineFor_compensate B hr).bind fun answer => ?_
  split <;> trivial

lemma engineFor_mutateAndVerify {cause : Cause} {expected : FakeSnapshot}
    {plan : NormalizedConfig} {points : MutatePoints} (hr : R identity.resource) :
    EngineFor L R (mutateAndVerify B cause identity expected plan points) := by
  have hfail : ∀ (proof : Option FakeSnapshot) (error : Error),
      EngineFor L R (failMutation B cause.lease identity expected proof error) :=
    fun proof error => (engineFor_rollbackProven B hr).bind fun _ => trivial
  unfold mutateAndVerify
  refine (engineFor_applyBound B hr).bind fun answer => ?_
  split
  · trivial
  · exact hfail _ _
  refine (engineFor_fire _).bind fun answer => ?_
  split
  · exact hfail _ _
  refine (engineFor_status hr).bind fun answer => ?_
  split
  · exact hfail _ _
  split
  · exact hfail _ _
  refine (engineFor_readback _ hr).bind fun answer => ?_
  split
  · exact hfail _ _
  refine (engineFor_fire _).bind fun answer => ?_
  split
  · exact hfail _ _
  split
  · exact hfail _ _
  refine (engineFor_status hr).bind fun answer => ?_
  split
  · exact hfail _ _
  split
  · exact hfail _ _
  refine (engineFor_fire _).bind fun answer => ?_
  split
  · exact hfail _ _
  split
  · trivial
  split
  · exact hfail _ _
  split
  · exact hfail _ _
  · trivial

end Mutation

/-! ## Transitions of a live record -/

section Transitions

variable (B : Backend FakeSnapshotData) {pending : PendingRollback FakeSnapshotData}
variable {record candidate resume : FakeRecord} {live : FakeLive}

/-- A record of the lease on a resource in `R`. -/
structure JournalRecord.For (L : LeaseId) (R : ResourceId → Prop) (record : FakeRecord) : Prop where
  on : record.On record.resource L
  mem : R record.resource

lemma JournalRecord.On.for (h : record.On r L) (hr : R r) : record.For L R := by
  obtain rfl := h.resource
  exact ⟨h, hr⟩

lemma JournalRecord.For.identity (h : record.For L R) : R record.identity.resource :=
  h.on.identity.symm ▸ h.mem

/-- Revisions that leave the names of a record alone. -/
lemma JournalRecord.For.revise (h : record.For L R) (hl : candidate.leaseId = record.leaseId)
    (hr : candidate.resource = record.resource) (hi : candidate.identity = record.identity) :
    candidate.For L R :=
  ⟨⟨hl.trans h.on.lease, rfl, by rw [hi, hr, h.on.identity]⟩, hr.symm ▸ h.mem⟩

lemma engineFor_write (h : record.For L R) : EngineFor L R (journalWrite record) :=
  engineFor_journalWrite h.on.lease h.mem

lemma engineFor_persistLive (h : candidate.For L R) (hr : R r) :
    EngineFor L R (persistLive ⟨K, r⟩ candidate).run := by
  refine EngineFor.value (engineFor_write h) fun answer => ?_
  split
  · exact (engineFor_liveSet _ hr).bind fun _ => trivial
  · exact EngineFor.value (engineFor_liveSet _ hr) fun _ => trivial

lemma engineFor_prepareLive (h : candidate.For L R) (hr : R r) :
    EngineFor L R (prepareLive ⟨L, r⟩ candidate).run := by
  refine engineFor_liveGet hr fun old hold => ?_
  refine EngineFor.value (engineFor_write h) fun answer => ?_
  split
  · exact (engineFor_liveSet _ hr).bind fun _ => trivial
  · refine EngineFor.value (engineFor_write (hold.record.for hr)) fun answer => ?_
    split
    · trivial
    · exact EngineFor.value (engineFor_liveSet _ hr) fun _ => trivial

lemma engineFor_retainCompensation (hr : R r) :
    EngineFor L R (retainCompensation ⟨L, r⟩ pending resume).run := by
  refine engineFor_liveGet hr fun live hlive => ?_
  refine EngineFor.value (engineFor_liveSet _ hr) fun _ => ?_
  refine EngineFor.value (engineFor_write ((hlive.record.for hr).revise rfl rfl rfl))
    fun answer => ?_
  split
  · trivial
  · exact EngineFor.value (engineFor_liveSet _ hr) fun _ => trivial

lemma engineFor_finalizeVerified {mutation : VerifiedMutation FakeSnapshotData}
    {current : Option FakeSnapshot} (hlive : live.On r L) (hr : R r) :
    EngineFor L R (finalizeVerified B ⟨L, r⟩ live mutation current).run := by
  have hrecord := hlive.record.for hr
  have hrest : ∀ current : FakeSnapshot, EngineFor L R (do
      let status ← ask (resourceStatus .forward live.record.identity)
      if status ≠ .same ∨ B.ownsCurrent mutation.persist current = false then
        throw (.externalModification live.record.resource
          "verified mutation no longer names current native state")
      let candidate := { live.record with phase := .applied, applied := some mutation.persist }
      ask (journalWrite candidate)
      value (liveSet ⟨L, r⟩ ⟨candidate, .committed⟩) :
        EngineResult FakeSnapshotData FakeIdentity Unit).run := by
    intro current
    refine EngineFor.run_bind (engineFor_status hrecord.identity) fun status => ?_
    dsimp only
    split
    · trivial
    · refine EngineFor.run_bind (engineFor_write (hrecord.revise rfl rfl rfl)) fun _ => ?_
      exact (engineFor_liveSet _ hr).bind fun _ => trivial
  unfold finalizeVerified
  cases current with
  | some current => exact hrest current
  | none => exact EngineFor.run_bind (engineFor_readback _ hrecord.mem) hrest

lemma JournalRecord.For.resumed (h : resume.For L R) (identity : Option FakeSnapshot) :
    (resumeWith resume identity).For L R := by
  unfold resumeWith
  split
  · exact h.revise rfl rfl rfl
  · exact h

lemma engineFor_resolveCompensation (hlive : live.On r L) (hresume : resume.On r L) (hr : R r) :
    EngineFor L R (resolveCompensation B ⟨L, r⟩ live pending resume).run := by
  refine EngineFor.value (engineFor_compensate B (hlive.record.for hr).identity) fun answer => ?_
  split
  · exact engineFor_persistLive ((hresume.for hr).resumed _) hr
  · exact EngineFor.value (engineFor_retainCompensation hr) fun _ => trivial

lemma engineFor_resolveLive {current : Option FakeSnapshot} (hr : R r) :
    EngineFor L R (resolveLive B ⟨L, r⟩ current).run := by
  refine engineFor_liveGet hr fun live hlive => ?_
  obtain ⟨record, state⟩ := live
  have hstate : ∀ state : FakeLiveState, state.On r L → EngineFor L R (match state with
      | .committed => return
      | .unmutated => return
      | .prepared =>
          throw (.externalModification record.resource
            "prepared intent has no verified applied mutation")
      | .verified mutation => finalizeVerified B ⟨L, r⟩ ⟨record, state⟩ mutation current
      | .compensating pending resume =>
          resolveCompensation B ⟨L, r⟩ ⟨record, state⟩ pending resume
      | .repair _ => throw (.panicked "journal repair is resolved first") :
        EngineResult FakeSnapshotData FakeIdentity Unit).run := by
    intro state hs
    split
    · trivial
    · trivial
    · trivial
    · exact engineFor_finalizeVerified B ⟨hlive.record, hs⟩ hr
    · exact engineFor_resolveCompensation B ⟨hlive.record, hs⟩ hs hr
    · trivial
  cases state with
  | repair next =>
      refine EngineFor.run_bind (engineFor_write (hlive.record.for hr)) fun _ => ?_
      refine EngineFor.value (engineFor_liveSet _ hr) fun _ => ?_
      have hnext : next.On r L := hlive.state
      cases next <;> exact hstate _ hnext
  | committed => exact hstate .committed trivial
  | unmutated => exact hstate .unmutated trivial
  | prepared => exact hstate .prepared trivial
  | verified mutation => exact hstate (.verified mutation) trivial
  | compensating pending resume => exact hstate (.compensating pending resume) hlive.state

lemma engineFor_commitVerified {mutation : VerifiedMutation FakeSnapshotData} (hr : R r) :
    EngineFor L R (commitVerified B ⟨L, r⟩ mutation).run := by
  refine engineFor_liveGet hr fun live _ => ?_
  exact EngineFor.value (engineFor_liveSet _ hr) fun _ => engineFor_resolveLive B hr

lemma engineFor_applyOverlay {expected before : FakeSnapshot} (hr : R r) :
    EngineFor L R (applyOverlay B ⟨L, r⟩ expected before) := by
  unfold applyOverlay
  refine engineFor_liveGet hr fun live hlive => ?_
  have hrecord := hlive.record.for hr
  have hcandidate : ({ live.record with
    before := before, phase := .prepared, applied := none } : FakeRecord).For L R :=
    hrecord.revise rfl rfl rfl
  refine (engineFor_prepareLive hcandidate hr).bind fun answer => ?_
  split
  · trivial
  refine (engineFor_fire _).bind fun answer => ?_
  split
  · trivial
  refine engineFor_liveGet hr fun live' _ => ?_
  refine (engineFor_liveSet _ hr).bind fun _ => ?_
  refine (engineFor_mutateAndVerify B hrecord.identity).bind fun answer => ?_
  split
  · refine (engineFor_commitVerified B hr).bind fun answer => ?_
    split
    · trivial
    · exact (engineFor_fire _).bind fun _ => trivial
  · refine engineFor_liveGet hr fun _ _ => ?_
    exact (engineFor_liveSet _ hr).bind fun _ => trivial

/-! ## Restore and recovery -/

lemma engineFor_finishRestore (hr : R record.resource) :
    EngineFor L R (finishRestore record).run :=
  EngineFor.run_bind (engineFor_journalRemove _ _ hr) fun _ => engineFor_fire _

lemma engineFor_restoreApplied {applied : FakeSnapshot} (hrecord : record.On r L) (hr : R r) :
    EngineFor L R (restoreApplied B ⟨L, r⟩ record applied).run := by
  refine EngineFor.value (engineFor_liveSet _ hr) fun _ => ?_
  refine EngineFor.value (engineFor_compensate B (hrecord.for hr).identity) fun answer => ?_
  split
  · exact EngineFor.value (engineFor_retainCompensation hr) fun _ => trivial
  · refine EngineFor.value (engineFor_liveSet _ hr) fun _ => ?_
    exact engineFor_finishRestore (hrecord.for hr).mem

lemma engineFor_restoreOwned {current : FakeSnapshot} (hr : R r) :
    EngineFor L R (restoreOwned B ⟨L, r⟩ current).run := by
  refine engineFor_liveGet hr fun live hlive => ?_
  dsimp only [ExceptT.bindCont]
  split
  · trivial
  · split
    · trivial
    · exact engineFor_restoreApplied B hlive.record hr

lemma engineFor_restoreLiveState (hr : R r) :
    EngineFor L R (restoreLiveState B ⟨L, r⟩).run := by
  refine engineFor_liveGet hr fun live hlive => ?_
  have hrecord := hlive.record.for hr
  refine EngineFor.run_bind (engineFor_status hrecord.identity) fun status => ?_
  split
  · exact engineFor_journalRemove _ _ hrecord.mem
  · exact engineFor_journalRemove _ _ hrecord.mem
  · trivial
  refine EngineFor.value (engineFor_readback _ hrecord.mem) fun answer => ?_
  split
  · exact engineFor_journalRemove _ _ hrecord.mem
  · trivial
  refine EngineFor.run_bind (engineFor_fire _) fun _ => ?_
  split
  · exact engineFor_finishRestore hrecord.mem
  split
  · exact engineFor_restoreOwned B hr
  · refine EngineFor.run_bind (engineFor_resolveLive B hr) fun _ => ?_
    refine engineFor_liveGet hr fun live hlive => ?_
    have hrecord := hlive.record.for hr
    refine EngineFor.run_bind (engineFor_readback _ hrecord.mem) fun _ => ?_
    split
    · exact engineFor_finishRestore hrecord.mem
    · exact engineFor_restoreOwned B hr

lemma engineFor_recoverOwned (h : record.For L R) : EngineFor L R (recoverOwned B record).run := by
  refine EngineFor.value (engineFor_compensate B h.identity) fun answer => ?_
  split
  · refine EngineFor.run_bind (engineFor_write (h.revise rfl rfl rfl)) fun _ => ?_
    split <;> trivial
  · refine EngineFor.run_bind (engineFor_journalRemove _ _ h.mem) fun _ => ?_
    exact EngineFor.run_bind (engineFor_fire _) fun _ => trivial

lemma engineFor_recoverRecord (h : record.For L R) :
    EngineFor L R (recoverRecord B record).run := by
  refine EngineFor.run_bind (engineFor_status h.identity) fun status => ?_
  split
  · exact EngineFor.run_bind (engineFor_journalRemove _ _ h.mem) fun _ => trivial
  · exact EngineFor.run_bind (engineFor_journalRemove _ _ h.mem) fun _ => trivial
  · trivial
  refine EngineFor.value (engineFor_capture h.mem) fun answer => ?_
  split
  · exact EngineFor.run_bind (engineFor_journalRemove _ _ h.mem) fun _ => trivial
  · trivial
  refine EngineFor.run_bind (engineFor_fire _) fun _ => ?_
  split
  · refine EngineFor.run_bind (engineFor_journalRemove _ _ h.mem) fun _ => ?_
    exact EngineFor.run_bind (engineFor_fire _) fun _ => trivial
  split
  · exact engineFor_recoverOwned B h
  · trivial

lemma engineFor_recoverForResource {owner : String} (h : record.For L R) :
    EngineFor L R (recoverForResource B owner record) := by
  unfold recoverForResource
  split
  · trivial
  · refine (engineFor_recoverRecord B h).bind fun answer => ?_
    split <;> trivial

end Transitions

/-! ## The apply transaction -/

section Apply

variable {B : Backend FakeSnapshotData} {plan : NormalizedConfig} {record : FakeRecord}
variable {records written : List FakeRecord}
variable {applied : List (FakeRecord × VerifiedMutation FakeSnapshotData)}
variable {resources : List ResourceId}
variable {observations : List (ResourceId × BoundObservation FakeSnapshotData FakeIdentity)}

lemma engineFor_removeRecords (h : ∀ x ∈ records, R x.resource) :
    EngineFor L R (removeRecords records : Engine FakeSnapshotData FakeIdentity _) := by
  induction records with
  | nil => trivial
  | cons x records ih =>
      obtain ⟨hx, hrest⟩ := List.forall_mem_cons.mp h
      refine (engineFor_journalRemove _ _ hx).bind fun answer => ?_
      split
      · exact ih hrest
      · exact (ih hrest).bind fun _ => trivial

lemma engineFor_persistUnmutatedFrom (hwritten : ∀ x ∈ written, x.For L R)
    (h : ∀ x ∈ records, x.For L R) : EngineFor L R (persistUnmutatedFrom written records :
      EngineResult FakeSnapshotData FakeIdentity Unit).run := by
  induction records generalizing written with
  | nil => trivial
  | cons x records ih =>
      obtain ⟨hx, hrest⟩ := List.forall_mem_cons.mp h
      have hnext : ∀ y ∈ written ++ [x], y.For L R :=
        List.forall_mem_append.mpr ⟨hwritten, List.forall_mem_singleton.mpr hx⟩
      refine EngineFor.value (engineFor_write hx) fun answer => ?_
      split
      · exact ih hnext hrest
      · exact EngineFor.value (engineFor_removeRecords fun y hy => (hnext y hy).mem) fun _ => trivial

lemma engineFor_rollbackApplied {mutation : VerifiedMutation FakeSnapshotData}
    (h : record.For L R) : EngineFor L R (rollbackApplied B record mutation) := by
  unfold rollbackApplied
  refine (engineFor_rollbackProven B h.identity).bind fun residue => ?_
  split
  · exact (engineFor_journalRemove _ _ h.mem).bind fun answer => by split <;> trivial
  · refine EngineFor.bind (engineFor_write (h.revise rfl rfl rfl)) fun answer => ?_
    split <;> trivial
  · trivial

lemma engineFor_rollbackAllApplied (h : ∀ x ∈ applied, x.1.For L R) :
    EngineFor L R (rollbackAllApplied B applied) := by
  induction applied with
  | nil => trivial
  | cons x applied ih =>
      obtain ⟨hx, hrest⟩ := List.forall_mem_cons.mp h
      exact (engineFor_rollbackApplied hx).bind fun _ => (ih hrest).bind fun _ => trivial

lemma engineFor_settleFailed {residue : MutationResidue FakeSnapshotData} (h : record.For L R) :
    EngineFor L R (settleFailed B record residue) := by
  unfold settleFailed
  split
  · refine EngineFor.bind (engineFor_write (h.revise rfl rfl rfl)) fun answer => ?_
    split <;> trivial
  · refine (engineFor_readback _ h.mem).bind fun answer => ?_
    split
    · trivial
    split
    · exact (engineFor_journalRemove _ _ h.mem).bind fun answer => by split <;> trivial
    · trivial

lemma engineFor_mutateApplied (happlied : ∀ x ∈ applied, x.1.For L R)
    (h : ∀ x ∈ records, x.For L R) : EngineFor L R (mutateApplied B plan applied records).run := by
  induction records generalizing applied with
  | nil => trivial
  | cons x records ih =>
      obtain ⟨hx, hrest⟩ := List.forall_mem_cons.mp h
      refine EngineFor.value (engineFor_mutateAndVerify _ hx.identity) fun answer => ?_
      split
      · exact ih (List.forall_mem_append.mpr ⟨happlied, List.forall_mem_singleton.mpr hx⟩) hrest
      · refine EngineFor.value (engineFor_rollbackAllApplied happlied) fun _ => ?_
        refine EngineFor.value (engineFor_settleFailed hx) fun _ => ?_
        exact EngineFor.value (engineFor_removeRecords fun y hy => (hrest y hy).mem) fun _ => trivial

lemma engineFor_createCommitted (h : ∀ x ∈ records, R x.resource) :
    EngineFor L R (createCommitted records : Engine FakeSnapshotData FakeIdentity Unit) := by
  induction records with
  | nil => trivial
  | cons x records ih =>
      obtain ⟨hx, hrest⟩ := List.forall_mem_cons.mp h
      exact (engineFor_liveSet _ hx).bind fun _ => ih hrest

lemma engineFor_createPrepared (h : ∀ x ∈ applied, R x.1.resource) :
    EngineFor L R (createPrepared applied : Engine FakeSnapshotData FakeIdentity Unit) := by
  induction applied with
  | nil => trivial
  | cons x applied ih =>
      obtain ⟨hx, hrest⟩ := List.forall_mem_cons.mp h
      exact (engineFor_liveSet _ hx).bind fun _ => ih hrest

lemma engineFor_commitAll (h : ∀ x ∈ applied, x.1.For L R) : EngineFor L R (commitAll B applied) := by
  induction applied with
  | nil => trivial
  | cons x applied ih =>
      obtain ⟨hx, hrest⟩ := List.forall_mem_cons.mp h
      have hcommit : EngineFor L R (commitVerified B ⟨x.1.leaseId, x.1.resource⟩ x.2).run := by
        rw [hx.on.lease]
        exact engineFor_commitVerified B hx.mem
      refine hcommit.bind fun answer => ?_
      split
      · exact ih hrest
      · exact (ih hrest).bind fun _ => trivial

lemma engineFor_observeAll (h : ∀ r ∈ resources, R r) :
    EngineFor L R (observeAll resources : EngineResult FakeSnapshotData FakeIdentity _).run := by
  induction resources with
  | nil => trivial
  | cons resource resources ih =>
      obtain ⟨hr, hrest⟩ := List.forall_mem_cons.mp h
      refine EngineFor.run_bind (engineFor_observe hr) fun _ => ?_
      refine EngineFor.run_bind (engineFor_fire _) fun _ => ?_
      exact EngineFor.run_bind (ih hrest) fun _ => trivial

/-- The records of an apply are records of its lease on the resources observed. -/
lemma for_initialRecords {owner : String} {wasNoop : Bool}
    (hobs : ∀ x ∈ observations, x.2.identity.resource = x.1 ∧ R x.1) :
    ∀ x ∈ initialRecords B owner L plan wasNoop observations, x.For L R := by
  intro x hx
  obtain ⟨y, hy, rfl⟩ := List.mem_map.mp hx
  exact ⟨⟨rfl, rfl, (hobs y hy).1⟩, (hobs y hy).2⟩

/-- A mutation loop that succeeds has one mutation for each record. -/
lemma yields_mutateApplied {A : (o : EngineOp FakeSnapshotData FakeIdentity) →
    EngineRet FakeSnapshotData FakeIdentity o → Prop} :
    (mutateApplied B plan applied records).run.Yields A fun answer =>
      ∀ applied', answer = .ok applied' → applied'.map Prod.fst = applied.map Prod.fst ++ records := by
  induction records generalizing applied with
  | nil =>
      intro applied' h
      obtain rfl := Except.ok.inj h
      rw [List.append_nil]
  | cons x records ih =>
      refine Fallible.yields_ignore fun answer => ?_
      match answer with
      | .ok mutation =>
          refine (@ih (applied ++ [(x, mutation)])).mono (fun _ _ h => h) fun a ha b hb => ?_
          rw [ha b hb, List.map_append, List.append_assoc]
          rfl
      | .error failure =>
          refine Fallible.yields_ignore fun _ => Fallible.yields_ignore fun _ => ?_
          exact Fallible.yields_ignore fun _ _ h => absurd h (by simp)

/-- `transact_with_locks` works for the lease it names, over the resources observed. -/
lemma engineFor_transactWithLocks {owner : String}
    (hobs : ∀ x ∈ observations, x.2.identity.resource = x.1 ∧ R x.1) :
    ∃ k, (transactWithLocks B owner plan observations).run = .call .newLeaseId k ∧
      ∀ lease, EngineFor lease R (k lease) := by
  refine ⟨_, rfl, fun lease => ?_⟩
  dsimp only [ExceptT.bindCont]
  generalize (observations.all fun entry => B.matchesDesired entry.2.snapshot plan) = wasNoop
  have hrecords := @for_initialRecords lease R B plan observations owner wasNoop hobs
  refine EngineFor.run_bind (engineFor_persistUnmutatedFrom (by simp) hrecords) fun _ => ?_
  cases wasNoop with
  | true =>
      refine EngineFor.run_bind (engineFor_fire _) fun _ => ?_
      exact EngineFor.value (engineFor_createCommitted fun x hx => (hrecords x hx).mem)
        fun _ => trivial
  | false =>
      refine EngineFor.run_bind (engineFor_fire _) fun _ => ?_
      refine EngineFor.run_seq (engineFor_mutateApplied (by simp) hrecords) yields_mutateApplied
        fun applied hfst => ?_
      have happlied : ∀ x ∈ applied, x.1.For lease R := fun x hx =>
        hrecords x.1 (by
          rw [List.map_nil, List.nil_append] at hfst
          exact hfst ▸ List.mem_map_of_mem hx)
      refine EngineFor.value (engineFor_createPrepared fun x hx => (happlied x hx).mem) fun _ => ?_
      refine EngineFor.value (engineFor_commitAll happlied) fun allWritten => ?_
      cases allWritten with
      | true => exact EngineFor.run_bind (engineFor_fire _) fun _ => trivial
      | false => trivial

end Apply

/-! ## Entries of an update -/

section Update

abbrev FakeEntry := UpdateEntry FakeSnapshotData FakeIdentity

variable {B : Backend FakeSnapshotData} {entry : FakeEntry}

/-- An entry of the lease `L` on a resource in `R`. -/
structure UpdateEntry.For (L : LeaseId) (R : ResourceId → Prop) (e : FakeEntry) : Prop where
  lease : e.ref.lease = L
  mem : R e.ref.resource
  old : e.old.On e.ref.resource L

lemma UpdateEntry.For.ref_eq (h : entry.For L R) : entry.ref = ⟨L, entry.ref.resource⟩ := by
  rw [← h.lease]

lemma UpdateEntry.For.record (h : entry.For L R) : entry.old.For L R := h.old.for h.mem

lemma engineFor_persistEntry {candidate : FakeRecord} (he : entry.For L R)
    (h : candidate.For L R) : EngineFor L R (persistLive entry.ref candidate).run := by
  rw [he.ref_eq]
  exact engineFor_persistLive h he.mem

lemma engineFor_settleUpdated {residue : MutationResidue FakeSnapshotData} (h : entry.For L R) :
    EngineFor L R (settleUpdated B entry residue) := by
  have hold := h.record
  unfold settleUpdated
  split
  · dsimp only
    rw [h.ref_eq]
    exact (engineFor_retainCompensation h.mem).bind fun answer => by split <;> trivial
  · dsimp only
    refine EngineFor.bind (engineFor_persistEntry h (hold.revise rfl rfl rfl)) fun answer => ?_
    split <;> trivial
  · exact (engineFor_persistEntry h hold).bind fun answer => by split <;> trivial

end Update

end Osdns
