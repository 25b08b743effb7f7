import Osdns.Framework.Discipline
import Osdns.Model.Operations

/-!
# Where evidence comes from

A guarded mutation replaces exactly the state its caller expects, so a state is safe from the
engine unless a snapshot of it is presented as `expected`.  Engine programs only present
snapshots they hold as evidence for the lease they work for, and evidence only ever comes from
the capture of an apply or from an earlier mutation for that lease.

An `Origin` says which snapshots of a resource a lease may hold as evidence.  The discipline
`provenance` lets a program present and store such snapshots only, and expects evidence of that
kind back from memory, the journal and mutations.  It also keeps which resources the session has
observed, since an apply observes each of its resources once.
-/

namespace Osdns

open Interaction
open Interaction.Fallible (ask value attempt IfOk ifOk_ok ifOk_error keeps_value keeps_bind)
open Engine

variable {D I : Type}

/-- Which snapshots of a resource a lease may hold as evidence. -/
abbrev Origin (D : Type) : Type := ResourceId → LeaseId → D → Prop

/-- Every snapshot in the record is evidence of its lease. -/
structure RecordFrom (P : Origin D) (ref : LiveRef) (record : JournalRecord D I) : Prop where
  leaseId : record.leaseId = ref.lease
  resource : record.resource = ref.resource
  identity : record.identity.resource = ref.resource
  before : P ref.resource ref.lease record.before.data
  applied : ∀ p, record.applied = some p → P ref.resource ref.lease p.data

structure PendingFrom (P : Origin D) (ref : LiveRef) (pending : PendingRollback D) : Prop where
  evidence : ∀ p, pending.evidence = some p → P ref.resource ref.lease p.data
  target : P ref.resource ref.lease pending.target.data

def StateFrom (P : Origin D) (ref : LiveRef) : LiveState D I → Prop
  | .verified mutation => P ref.resource ref.lease mutation.persist.data
  | .compensating pending resume => PendingFrom P ref pending ∧ RecordFrom P ref resume
  | .repair next => StateFrom P ref next
  | _ => True

structure LiveFrom (P : Origin D) (ref : LiveRef) (live : LiveRecord D I) : Prop where
  record : RecordFrom P ref live.record
  state : StateFrom P ref live.state

def ResidueFrom (P : Origin D) (ref : LiveRef) : MutationResidue D → Prop
  | .unchanged => True
  | .restored identity => ∀ p, identity = some p → P ref.resource ref.lease p.data
  | .pending pending => PendingFrom P ref pending

/-- The snapshot a mutation reports to have produced. -/
def MutationAttempt.produced : MutationAttempt D → Option (PlatformSnapshot D)
  | .performed produced => produced
  | .rejected _ => none
  | .indeterminate _ produced => produced

/-- Programs of session `i` present and store evidence of `P` only; the state is the set of
resources observed. -/
def provenance (i : LeaseId) (P : Origin D) : Discipline (EngineRet D I) (Set ResourceId) where
  allows observed
    | .observe resource => resource ∉ observed
    | .applyGuarded cause resource expected _ => P resource cause.lease expected.data
    | .restoreGuarded cause resource expected _ => P resource cause.lease expected.data
    | .apply _ _ _ => False
    | .restore _ _ _ => False
    | .journalWrite record => RecordFrom P ⟨record.leaseId, record.resource⟩ record
    | .liveSet ref live => LiveFrom P ref live
    | _ => True
  expects _ o answer :=
    match o, answer with
    | .observe resource, .ok observation =>
        observation.identity.resource = resource ∧ P resource i observation.snapshot.data
    | .applyGuarded cause resource _ _, attempt =>
        ∀ p, attempt.produced = some p → P resource cause.lease p.data
    | .restoreGuarded cause resource _ _, attempt =>
        ∀ p, attempt.produced = some p → P resource cause.lease p.data
    | .journalRecords, .ok records =>
        ∀ record ∈ records, RecordFrom P ⟨record.leaseId, record.resource⟩ record
    | .newLeaseId, lease => lease = i
    | .liveGet ref, live => LiveFrom P ref live
    | _, _ => True
  next observed
    | .observe resource, _ => insert resource observed
    | _, _ => observed

variable {i : LeaseId} {P : Origin D} {B : Backend D} {φ : Prop}

section Calls

variable {ref : LiveRef}

lemma keeps_fire (point : TxPoint) :
    (fire point : Engine D I _).Keeps (provenance i P) fun _ => True :=
  .call fun _ => ⟨trivial, fun _ _ => ⟨rfl, .done trivial⟩⟩

lemma keeps_status (site : Site) (identity : ResourceIdentity I) :
    (resourceStatus site identity : Engine D I _).Keeps (provenance i P) fun _ => True :=
  .call fun _ => ⟨trivial, fun _ _ => ⟨rfl, .done trivial⟩⟩

lemma keeps_readback (site : Site) (resource : ResourceId) :
    (readback site resource : Engine D I _).Keeps (provenance i P) fun _ => True :=
  .call fun _ => ⟨trivial, fun _ _ => ⟨rfl, .done trivial⟩⟩

lemma keeps_capture (resource : ResourceId) :
    (capture resource : Engine D I _).Keeps (provenance i P) fun _ => True :=
  .call fun _ => ⟨trivial, fun _ _ => ⟨rfl, .done trivial⟩⟩

lemma keeps_journalRemove (leaseId : LeaseId) (resource : ResourceId) (removal : Removal) :
    (journalRemove leaseId resource removal : Engine D I _).Keeps (provenance i P) fun _ => True :=
  .call fun _ => ⟨trivial, fun _ _ => ⟨rfl, .done trivial⟩⟩

lemma keeps_journalWrite {record : JournalRecord D I} (h : RecordFrom P ref record) :
    (journalWrite record).Keeps (provenance i P) fun _ => True := by
  obtain ⟨lease, resource⟩ := ref
  obtain rfl : record.leaseId = lease := h.leaseId
  obtain rfl : record.resource = resource := h.resource
  exact .call fun _ => ⟨h, fun _ _ => ⟨rfl, .done trivial⟩⟩

lemma keeps_liveGet (ref : LiveRef) :
    (liveGet ref : Engine D I _).Keeps (provenance i P) (LiveFrom P ref) :=
  .call fun _ => ⟨trivial, fun _ h => ⟨rfl, .done h⟩⟩

lemma keeps_liveSet {live : LiveRecord D I} (h : LiveFrom P ref live) :
    (liveSet ref live).Keeps (provenance i P) fun _ => True :=
  .call fun _ => ⟨h, fun _ _ => ⟨rfl, .done trivial⟩⟩

end Calls

/-! ## Mutations -/

/-- The backend compares and mutates in one step and issues durable identities. -/
structure Backend.Guarded (B : Backend D) : Prop where
  guard : B.mutationGuard = .compareAndMutate
  identity : B.ownershipIdentity = .durable

section Mutations

variable {lease : LeaseId} {identity : ResourceIdentity I}

/-- The produced snapshot is evidence for the lease. -/
def AttemptFrom (P : Origin D) (ref : LiveRef) (attempt : MutationAttempt D) : Prop :=
  ∀ p, attempt.produced = some p → P ref.resource ref.lease p.data

lemma keeps_applyBound (hB : B.Guarded) {cause : Cause} {expected : PlatformSnapshot D}
    {plan : NormalizedConfig} (he : P identity.resource cause.lease expected.data) :
    (applyBound B cause identity expected plan).Keeps (provenance i P)
      (AttemptFrom P ⟨cause.lease, identity.resource⟩) := by
  refine (keeps_status .forward identity).bind fun answer _ => ?_
  match answer with
  | .error error => exact .done nofun
  | .ok .same =>
      rw [hB.guard]
      exact .call fun _ => ⟨he, fun _ h => ⟨rfl, .done h⟩⟩
  | .ok .gone => exact .done nofun
  | .ok .replaced => exact .done nofun
  | .ok .ambiguous => exact .done nofun

lemma keeps_restoreBound (hB : B.Guarded) {cause : Cause} {expected target : PlatformSnapshot D}
    (he : P identity.resource cause.lease expected.data) :
    (restoreBound B cause identity expected target).Keeps (provenance i P)
      (AttemptFrom P ⟨cause.lease, identity.resource⟩) := by
  refine (keeps_status .compensation identity).bind fun answer _ => ?_
  match answer with
  | .error error => exact .done nofun
  | .ok .same =>
      rw [hB.guard]
      exact .call fun _ => ⟨he, fun _ h => ⟨rfl, .done h⟩⟩
  | .ok .gone => exact .done nofun
  | .ok .replaced => exact .done nofun
  | .ok .ambiguous => exact .done nofun

/-- A snapshot that is evidence, if there is one. -/
def ProofFrom (P : Origin D) (ref : LiveRef) (proof : Option (PlatformSnapshot D)) : Prop :=
  ∀ p, proof = some p → P ref.resource ref.lease p.data

lemma keeps_verifyCompensation (hB : B.Guarded) {pending : PendingRollback D}
    (hp : PendingFrom P ⟨lease, identity.resource⟩ pending) :
    (verifyCompensation B identity pending).run.Keeps (provenance i P)
      (IfOk (ProofFrom P ⟨lease, identity.resource⟩)) := by
  refine keeps_bind (ψ := fun _ => True) ((keeps_readback _ _).mono fun _ _ _ _ => trivial)
    (fun now _ => ?_) fun _ => ifOk_error
  refine keeps_bind (ψ := fun _ => True) ((keeps_status _ _).mono fun _ _ _ _ => trivial)
    (fun status _ => ?_) fun _ => ifOk_error
  by_cases unverified : status ≠ .same ∨ B.equivalent now pending.target = false
  · simp only [if_pos unverified]
    exact .done ifOk_error
  · simp only [if_neg unverified]
    cases hf : pending.evidence.filter (B.ownsCurrent · now) with
    | some proof =>
        obtain ⟨he, _⟩ := Option.filter_eq_some_iff.mp hf
        exact .done (ifOk_ok fun p h => hp.evidence p (he.trans h))
    | none =>
        simp only [hB.identity, reduceCtorEq, and_false, if_false]
        exact .done (ifOk_ok nofun)

/-- What a compensation answers with, and what it leaves pending, is evidence of the lease. -/
lemma keeps_compensate (hB : B.Guarded) {pending : PendingRollback D} (point : Option TxPoint)
    (hp : PendingFrom P ⟨lease, identity.resource⟩ pending) :
    (compensate B lease identity pending point).Keeps (provenance i P) fun answer =>
      IfOk (ProofFrom P ⟨lease, identity.resource⟩) answer.1 ∧
        PendingFrom P ⟨lease, identity.resource⟩ answer.2 := by
  refine (keeps_status _ _).bind fun answer _ => ?_
  match answer with
  | .error error => exact .done ⟨ifOk_error, hp⟩
  | .ok status =>
  dsimp only
  split
  · exact .done ⟨ifOk_error, hp⟩
  refine (keeps_readback _ _).bind fun answer _ => ?_
  match answer with
  | .error error => exact .done ⟨ifOk_error, hp⟩
  | .ok current =>
  dsimp only
  split
  · split
    · next proof hproof =>
        obtain ⟨he, _⟩ := Option.filter_eq_some_iff.mp hproof
        exact .done ⟨ifOk_ok fun p h => hp.evidence p (he.trans h), hp⟩
    · refine .done ⟨ifOk_ok fun p h => ?_, hp⟩
      split at h
      · obtain rfl := Option.some.inj h
        exact hp.target
      · cases h
  split
  · exact .done ⟨ifOk_error, hp⟩
  · next proof hproof =>
      split
      · exact .done ⟨ifOk_error, hp⟩
      refine (keeps_restoreBound hB (hp.evidence proof hproof)).bind fun attempt ha => ?_
      match attempt with
      | .rejected error => exact .done ⟨ifOk_error, hp⟩
      | .indeterminate error none => exact .done ⟨ifOk_error, hp⟩
      | .indeterminate error (some produced) =>
          exact .done ⟨ifOk_error, fun p h => ha p h, hp.target⟩
      | .performed produced =>
          have hp' : PendingFrom P ⟨lease, identity.resource⟩ { pending with evidence := produced } :=
            ⟨fun p h => ha p h, hp.target⟩
          cases point with
          | none => exact (keeps_verifyCompensation hB hp').bind fun _ h => .done ⟨h, hp'⟩
          | some point =>
              refine (keeps_fire point).bind fun answer _ => ?_
              match answer with
              | .error error => exact .done ⟨ifOk_error, hp'⟩
              | .ok _ => exact (keeps_verifyCompensation hB hp').bind fun _ h => .done ⟨h, hp'⟩

lemma keeps_rollbackProven (hB : B.Guarded) {proof : Option (PlatformSnapshot D)}
    {target : PlatformSnapshot D} (hp : PendingFrom P ⟨lease, identity.resource⟩ ⟨proof, target⟩) :
    (rollbackProven B lease identity proof target).Keeps (provenance i P)
      (ResidueFrom P ⟨lease, identity.resource⟩) := by
  refine (keeps_compensate hB none hp).bind fun answer h => ?_
  match answer with
  | (.ok restored, _) => exact .done (h.1 restored rfl)
  | (.error _, pending) => exact .done h.2

/-- The outcome of a mutation carries evidence of the lease only. -/
def VerifiedFrom (P : Origin D) (ref : LiveRef) :
    Except (MutationFailure D) (VerifiedMutation D) → Prop
  | .ok mutation => P ref.resource ref.lease mutation.persist.data
  | .error failure => ResidueFrom P ref failure.residue

lemma keeps_failMutation (hB : B.Guarded) {expected : PlatformSnapshot D}
    {produced : Option (PlatformSnapshot D)} (error : Error)
    (hp : PendingFrom P ⟨lease, identity.resource⟩ ⟨produced, expected⟩) :
    (failMutation B lease identity expected produced error).Keeps (provenance i P)
      (VerifiedFrom P ⟨lease, identity.resource⟩) :=
  (keeps_rollbackProven hB hp).bind fun _ h => .done h

lemma keeps_mutateAndVerify (hB : B.Guarded) (cause : Cause) {expected : PlatformSnapshot D}
    {plan : NormalizedConfig} {points : MutatePoints}
    (he : P identity.resource cause.lease expected.data) :
    (mutateAndVerify B cause identity expected plan points).Keeps (provenance i P)
      (VerifiedFrom P ⟨cause.lease, identity.resource⟩) := by
  refine (keeps_applyBound hB he).bind fun attempt ha => ?_
  have fails : ∀ {produced : Option (PlatformSnapshot D)} (error : Error),
      (∀ p, produced = some p → P identity.resource cause.lease p.data) →
        (failMutation B cause.lease identity expected produced error).Keeps (provenance i P)
          (VerifiedFrom P ⟨cause.lease, identity.resource⟩) :=
    fun error h => keeps_failMutation hB error ⟨h, he⟩
  match attempt with
  | .rejected error => exact .done trivial
  | .indeterminate error produced => exact fails error ha
  | .performed produced =>
  replace ha : ∀ p, produced = some p → P identity.resource cause.lease p.data := ha
  refine (keeps_fire _).bind fun answer _ => ?_
  match answer with
  | .error error => exact fails error ha
  | .ok _ =>
  refine (keeps_status _ _).bind fun answer _ => ?_
  match answer with
  | .error error => exact fails error ha
  | .ok status =>
  dsimp only
  split
  · exact fails _ ha
  refine (keeps_readback _ _).bind fun answer _ => ?_
  match answer with
  | .error error => exact fails error ha
  | .ok actual =>
  refine (keeps_fire _).bind fun answer _ => ?_
  match answer with
  | .error error => exact fails error ha
  | .ok _ =>
  dsimp only
  split
  · exact fails _ ha
  refine (keeps_status _ _).bind fun answer _ => ?_
  match answer with
  | .error error => exact fails error ha
  | .ok status =>
  dsimp only
  split
  · exact fails _ ha
  refine (keeps_fire _).bind fun answer _ => ?_
  match answer with
  | .error error => exact fails error ha
  | .ok _ =>
  simp only [hB.identity]
  cases produced with
  | none => exact fails _ nofun
  | some proof =>
      dsimp only
      split
      · exact fails _ ha
      · exact .done (ha proof rfl)

end Mutations

/-! ## Live records -/

section LiveRecords

variable {ref : LiveRef} {candidate : JournalRecord D I}

/-- The same record in another phase, with other evidence. -/
lemma RecordFrom.revise {record : JournalRecord D I} (h : RecordFrom P ref record)
    {phase : Phase} {desired : NormalizedConfig} {applied : Option (PlatformSnapshot D)}
    (ha : ProofFrom P ref applied) : RecordFrom P ref { record with phase, desired, applied } :=
  ⟨h.leaseId, h.resource, h.identity, h.before, ha⟩

lemma RecordFrom.at_identity {record : JournalRecord D I} (h : RecordFrom P ref record) :
    (⟨ref.lease, record.identity.resource⟩ : LiveRef) = ref := by
  rw [h.identity]

lemma keeps_persistLive (h : RecordFrom P ref candidate) :
    (persistLive ref candidate).run.Keeps (provenance i P) fun _ => True := by
  have state : StateFrom P ref
      (if candidate.phase = .applied then .committed else .unmutated : LiveState D I) := by
    split <;> trivial
  refine keeps_value (keeps_journalWrite h) fun answer _ => ?_
  match answer with
  | .ok _ => exact keeps_value (keeps_liveSet ⟨h, state⟩) fun _ _ => .done trivial
  | .error error => exact keeps_value (keeps_liveSet ⟨h, state⟩) fun _ _ => .done trivial

lemma keeps_retainCompensation {pending : PendingRollback D} {resume : JournalRecord D I}
    (hp : PendingFrom P ref pending) (hr : RecordFrom P ref resume) :
    (retainCompensation ref pending resume).run.Keeps (provenance i P) fun _ => True := by
  refine keeps_value (keeps_liveGet ref) fun live hl => ?_
  have record : RecordFrom P ref { live.record with
      phase := .prepared, applied := pending.evidence, desired := resume.desired } :=
    hl.record.revise hp.evidence
  refine keeps_value (keeps_liveSet ⟨record, hp, hr⟩) fun _ _ => ?_
  refine keeps_value (keeps_journalWrite record) fun answer _ => ?_
  match answer with
  | .ok _ => exact .done trivial
  | .error error => exact keeps_value (keeps_liveSet ⟨record, hp, hr⟩) fun _ _ => .done trivial

lemma keeps_ask {α : Type} {p : Engine D I (Except Error α)}
    (h : p.Keeps (provenance i P) fun _ => True) :
    (ask p).run.Keeps (provenance i P) (IfOk fun _ => True) :=
  h.mono fun _ _ _ _ => trivial

lemma keeps_finalizeVerified {live : LiveRecord D I} {mutation : VerifiedMutation D}
    {current : Option (PlatformSnapshot D)} (hl : RecordFrom P ref live.record)
    (hm : P ref.resource ref.lease mutation.persist.data) :
    (finalizeVerified B ref live mutation current).run.Keeps (provenance i P) fun _ => True := by
  have record : RecordFrom P ref { live.record with
      phase := .applied, applied := some mutation.persist } :=
    hl.revise fun p h => Option.some.inj h ▸ hm
  have publish : ∀ current, ((do
      let status ← ask (resourceStatus .forward live.record.identity)
      if status ≠ .same ∨ B.ownsCurrent mutation.persist current = false then
        throw (.externalModification live.record.resource
          "verified mutation no longer names current native state")
      let candidate := { live.record with phase := .applied, applied := some mutation.persist }
      ask (journalWrite candidate)
      value (liveSet ref ⟨candidate, .committed⟩) : EngineResult D I Unit)).run.Keeps
        (provenance i P) fun _ => True := by
    intro current
    refine keeps_bind (keeps_ask (keeps_status _ _)) (fun status _ => ?_) fun _ => trivial
    by_cases lost : status ≠ .same ∨ B.ownsCurrent mutation.persist current = false
    · simp only [if_pos lost]
      exact .done trivial
    · simp only [if_neg lost]
      refine keeps_bind (keeps_ask (keeps_journalWrite record)) (fun _ _ => ?_) fun _ => trivial
      have committed : LiveFrom P ref ⟨_, .committed⟩ := ⟨record, trivial⟩
      exact keeps_value (keeps_liveSet committed) fun _ _ => .done trivial
  unfold finalizeVerified
  cases current with
  | some current => exact publish current
  | none =>
      exact keeps_bind (keeps_ask (keeps_readback _ _)) (fun current _ => publish current)
        fun _ => trivial

lemma RecordFrom.resume {identity : Option (PlatformSnapshot D)}
    (h : RecordFrom P ref candidate) (hi : ProofFrom P ref identity) :
    RecordFrom P ref (resumeWith candidate identity) := by
  unfold resumeWith
  split
  · exact h.revise hi
  · exact h

lemma keeps_resolveCompensation (hB : B.Guarded) {live : LiveRecord D I}
    {pending : PendingRollback D} {resume : JournalRecord D I} (hl : RecordFrom P ref live.record)
    (hp : PendingFrom P ref pending) (hr : RecordFrom P ref resume) :
    (resolveCompensation B ref live pending resume).run.Keeps (provenance i P) fun _ => True := by
  have compensated := keeps_compensate (i := i) hB none (hl.at_identity.symm ▸ hp)
  rw [hl.at_identity] at compensated
  refine keeps_value compensated fun answer h => ?_
  match answer with
  | (.ok identity, _) => exact keeps_persistLive (hr.resume (h.1 identity rfl))
  | (.error error, pending) =>
      exact keeps_value (keeps_retainCompensation h.2 hr) fun _ _ => .done trivial

/-- What `resolveLive` does once the journal is repaired. -/
lemma keeps_resolveState (hB : B.Guarded) (current : Option (PlatformSnapshot D))
    {live : LiveRecord D I} (hl : LiveFrom P ref live) : ((do
      match live.state with
      | .committed => return
      | .unmutated => return
      | .prepared =>
          throw (.externalModification live.record.resource
            "prepared intent has no verified applied mutation")
      | .verified mutation => finalizeVerified B ref live mutation current
      | .compensating pending resume => resolveCompensation B ref live pending resume
      | .repair _ => throw (.panicked "journal repair is resolved first") :
        EngineResult D I Unit)).run.Keeps (provenance i P) fun _ => True := by
  obtain ⟨record, state⟩ := live
  obtain ⟨hr, hs⟩ := hl
  cases state with
  | committed => exact .done trivial
  | unmutated => exact .done trivial
  | prepared => exact .done trivial
  | verified mutation => exact keeps_finalizeVerified hr hs
  | compensating pending resume => exact keeps_resolveCompensation hB hr hs.1 hs.2
  | repair next => exact .done trivial

lemma keeps_resolveLive (hB : B.Guarded) (current : Option (PlatformSnapshot D)) :
    (resolveLive B ref current : EngineResult D I _).run.Keeps (provenance i P) fun _ => True := by
  refine keeps_value (keeps_liveGet ref) fun live hl => ?_
  obtain ⟨record, state⟩ := live
  cases state with
  | repair next =>
      have repaired : LiveFrom P ref ⟨record, next⟩ := ⟨hl.record, hl.state⟩
      refine keeps_bind (keeps_ask (keeps_journalWrite hl.record)) (fun _ _ => ?_) fun _ => trivial
      exact keeps_value (keeps_liveSet repaired) fun _ _ =>
        keeps_resolveState hB current repaired
  | committed => exact keeps_resolveState hB current hl
  | unmutated => exact keeps_resolveState hB current hl
  | prepared => exact keeps_resolveState hB current hl
  | verified mutation => exact keeps_resolveState hB current hl
  | compensating pending resume => exact keeps_resolveState hB current hl

lemma keeps_commitVerified (hB : B.Guarded) {mutation : VerifiedMutation D}
    (hm : P ref.resource ref.lease mutation.persist.data) :
    (commitVerified B ref mutation : EngineResult D I _).run.Keeps (provenance i P)
      fun _ => True := by
  refine keeps_value (keeps_liveGet ref) fun live hl => ?_
  exact keeps_value (keeps_liveSet ⟨hl.record, hm⟩) fun _ _ => keeps_resolveLive hB none

end LiveRecords

/-! ## Apply -/

section Apply

/-- Records of an apply: each is evidence of its own lease. -/
def RecordsFrom (P : Origin D) (records : List (JournalRecord D I)) : Prop :=
  ∀ record ∈ records, RecordFrom P ⟨record.leaseId, record.resource⟩ record

/-- The mutations of an apply, each with the record it was made for. -/
def AppliedFrom (P : Origin D) (applied : List (JournalRecord D I × VerifiedMutation D)) : Prop :=
  ∀ entry ∈ applied, RecordFrom P ⟨entry.1.leaseId, entry.1.resource⟩ entry.1 ∧
    P entry.1.resource entry.1.leaseId entry.2.persist.data

lemma keeps_removeRecords (records : List (JournalRecord D I)) :
    (removeRecords records).Keeps (provenance i P) fun _ => True := by
  induction records with
  | nil => exact .done trivial
  | cons record records ih =>
      refine (keeps_journalRemove _ _ _).bind fun answer _ => ?_
      match answer with
      | .ok _ => exact ih
      | .error error => exact ih.bind fun _ _ => .done trivial

lemma keeps_persistUnmutatedFrom {records : List (JournalRecord D I)}
    (h : RecordsFrom P records) (written : List (JournalRecord D I)) :
    (persistUnmutatedFrom written records).run.Keeps (provenance i P) (IfOk fun _ => True) := by
  induction records generalizing written with
  | nil => exact .done fun _ _ => trivial
  | cons record records ih =>
      obtain ⟨head, tail⟩ := List.forall_mem_cons.mp h
      refine keeps_value (keeps_journalWrite head) fun answer _ => ?_
      match answer with
      | .ok _ => exact ih tail _
      | .error primary => exact keeps_value (keeps_removeRecords _) fun _ _ => .done ifOk_error

lemma keeps_rollbackApplied (hB : B.Guarded) {record : JournalRecord D I}
    {mutation : VerifiedMutation D}
    (hr : RecordFrom P ⟨record.leaseId, record.resource⟩ record)
    (hm : P record.resource record.leaseId mutation.persist.data) :
    (rollbackApplied B record mutation).Keeps (provenance i P) fun _ => True := by
  have pending : PendingFrom P ⟨record.leaseId, record.identity.resource⟩
      ⟨some mutation.persist, record.before⟩ := by
    rw [hr.identity]
    exact ⟨fun p h => Option.some.inj h ▸ hm, hr.before⟩
  refine (keeps_rollbackProven hB pending).bind fun residue h => ?_
  rw [hr.identity] at h
  match residue with
  | .restored _ =>
      refine (keeps_journalRemove _ _ _).bind fun answer _ => ?_
      match answer with
      | .ok _ => exact .done trivial
      | .error error => exact .done trivial
  | .pending pending =>
      have revised : RecordFrom P ⟨record.leaseId, record.resource⟩
          { record with applied := pending.evidence } := hr.revise h.evidence
      refine (keeps_journalWrite revised).bind fun answer _ => ?_
      match answer with
      | .ok _ => exact .done trivial
      | .error error => exact .done trivial
  | .unchanged => exact .done trivial

lemma keeps_rollbackAllApplied (hB : B.Guarded)
    {applied : List (JournalRecord D I × VerifiedMutation D)} (h : AppliedFrom P applied) :
    (rollbackAllApplied B applied).Keeps (provenance i P) fun _ => True := by
  induction applied with
  | nil => exact .done trivial
  | cons entry applied ih =>
      obtain ⟨head, tail⟩ := List.forall_mem_cons.mp h
      exact (keeps_rollbackApplied hB head.1 head.2).bind fun _ _ =>
        (ih tail).bind fun _ _ => .done trivial

/-- The branch of `settleFailed` without a pending rollback. -/
lemma keeps_settleByReadback {record : JournalRecord D I} : (do
    match ← readback .forward record.resource with
    | .error _ => return []
    | .ok now =>
        if B.equivalent now record.before then
          match ← journalRemove record.leaseId record.resource .settled with
          | .ok _ => return []
          | .error error => return [error]
        else return [] : Engine D I (List Error)).Keeps (provenance i P) fun _ => True := by
  refine (keeps_readback _ _).bind fun answer _ => ?_
  cases answer with
  | error error => exact .done trivial
  | ok now =>
      dsimp only
      split
      · refine (keeps_journalRemove _ _ _).bind fun answer _ => ?_
        cases answer <;> exact .done trivial
      · exact .done trivial

lemma keeps_settleFailed {record : JournalRecord D I} {residue : MutationResidue D}
    (hr : RecordFrom P ⟨record.leaseId, record.resource⟩ record)
    (h : ResidueFrom P ⟨record.leaseId, record.resource⟩ residue) :
    (settleFailed B record residue).Keeps (provenance i P) fun _ => True := by
  cases residue with
  | unchanged => exact keeps_settleByReadback
  | restored identity => exact keeps_settleByReadback
  | pending pending =>
      have revised : RecordFrom P ⟨record.leaseId, record.resource⟩
          { record with applied := pending.evidence } := hr.revise h.evidence
      refine (keeps_journalWrite revised).bind fun answer _ => ?_
      match answer with
      | .ok _ => exact .done trivial
      | .error error => exact .done trivial

lemma keeps_mutateApplied (hB : B.Guarded) {plan : NormalizedConfig}
    {applied : List (JournalRecord D I × VerifiedMutation D)} {records : List (JournalRecord D I)}
    (ha : AppliedFrom P applied) (hr : RecordsFrom P records) :
    (mutateApplied B plan applied records).run.Keeps (provenance i P) (IfOk (AppliedFrom P)) := by
  induction records generalizing applied with
  | nil => exact .done (ifOk_ok ha)
  | cons record records ih =>
      obtain ⟨head, tail⟩ := List.forall_mem_cons.mp hr
      have expected : P record.identity.resource record.leaseId record.before.data := by
        rw [head.identity]
        exact head.before
      refine keeps_value (keeps_mutateAndVerify hB ⟨record.leaseId, false⟩ expected)
        fun answer h => ?_
      rw [head.identity] at h
      match answer with
      | .ok mutation =>
          refine ih (fun entry hentry => ?_) tail
          rcases List.mem_append.mp hentry with hentry | hentry
          · exact ha entry hentry
          · obtain rfl := List.mem_singleton.mp hentry
            exact ⟨head, h⟩
      | .error failure =>
          refine keeps_value (keeps_rollbackAllApplied hB ha) fun _ _ => ?_
          refine keeps_value (keeps_settleFailed head h) fun _ _ => ?_
          exact keeps_value (keeps_removeRecords _) fun _ _ => .done ifOk_error

lemma keeps_createCommitted {records : List (JournalRecord D I)} (h : RecordsFrom P records) :
    (createCommitted records).Keeps (provenance i P) fun _ => True := by
  induction records with
  | nil => exact .done trivial
  | cons record records ih =>
      obtain ⟨head, tail⟩ := List.forall_mem_cons.mp h
      have committed : LiveFrom P ⟨record.leaseId, record.resource⟩ ⟨record, .committed⟩ :=
        ⟨head, trivial⟩
      exact (keeps_liveSet committed).bind fun _ _ => ih tail

lemma keeps_createPrepared {applied : List (JournalRecord D I × VerifiedMutation D)}
    (h : AppliedFrom P applied) :
    (createPrepared applied).Keeps (provenance i P) fun _ => True := by
  induction applied with
  | nil => exact .done trivial
  | cons entry applied ih =>
      obtain ⟨head, tail⟩ := List.forall_mem_cons.mp h
      have prepared : LiveFrom P ⟨entry.1.leaseId, entry.1.resource⟩ ⟨entry.1, .prepared⟩ :=
        ⟨head.1, trivial⟩
      exact (keeps_liveSet prepared).bind fun _ _ => ih tail

lemma keeps_commitAll (hB : B.Guarded) {applied : List (JournalRecord D I × VerifiedMutation D)}
    (h : AppliedFrom P applied) :
    (commitAll B applied).Keeps (provenance i P) fun _ => True := by
  induction applied with
  | nil => exact .done trivial
  | cons entry applied ih =>
      obtain ⟨head, tail⟩ := List.forall_mem_cons.mp h
      refine (keeps_commitVerified hB head.2).bind fun answer _ => ?_
      match answer with
      | .ok _ => exact ih tail
      | .error error => exact (ih tail).bind fun _ _ => .done trivial

/-- What an apply observed: each resource under its own name, as evidence for the lease. -/
def ObservedFrom (P : Origin D) (lease : LeaseId)
    (observations : List (ResourceId × BoundObservation D I)) : Prop :=
  ∀ entry ∈ observations, entry.2.identity.resource = entry.1 ∧
    P entry.1 lease entry.2.snapshot.data

lemma recordsFrom_initial {owner : String} {plan : NormalizedConfig} {wasNoop : Bool}
    {observations : List (ResourceId × BoundObservation D I)} (h : ObservedFrom P i observations) :
    RecordsFrom P (initialRecords B owner i plan wasNoop observations) := by
  intro record member
  obtain ⟨entry, hentry, rfl⟩ := List.mem_map.mp member
  obtain ⟨hi, hp⟩ := h entry hentry
  refine ⟨rfl, rfl, hi, hp, fun p ha => ?_⟩
  cases wasNoop with
  | false => cases ha
  | true =>
      obtain rfl := Option.some.inj ha
      exact hp

lemma keeps_transactWithLocks (hB : B.Guarded) {owner : String} {plan : NormalizedConfig}
    {observations : List (ResourceId × BoundObservation D I)} (h : ObservedFrom P i observations) :
    (transactWithLocks B owner plan observations).run.Keeps (provenance i P) fun _ => True := by
  refine .call fun _ => ⟨trivial, fun lease hlease => ⟨rfl, ?_⟩⟩
  obtain rfl : lease = i := hlease
  dsimp only [ExceptT.bindCont]
  generalize (observations.all fun entry => B.matchesDesired entry.2.snapshot plan) = wasNoop
  have records : RecordsFrom P (initialRecords B owner lease plan wasNoop observations) :=
    recordsFrom_initial h
  have persisted : (persistUnmutated (initialRecords B owner lease plan wasNoop
      observations)).run.Keeps (provenance lease P) (IfOk fun _ => True) :=
    keeps_persistUnmutatedFrom records []
  refine keeps_bind persisted (fun _ _ => ?_) fun _ => trivial
  cases wasNoop with
  | true =>
      refine keeps_bind (keeps_ask (keeps_fire _)) (fun _ _ => ?_) fun _ => trivial
      exact keeps_value (keeps_createCommitted records) fun _ _ => .done trivial
  | false =>
      refine keeps_bind (keeps_ask (keeps_fire _)) (fun _ _ => ?_) fun _ => trivial
      have nothing : AppliedFrom P ([] : List (JournalRecord D I × VerifiedMutation D)) := by
        simp [AppliedFrom]
      refine keeps_bind (keeps_mutateApplied hB nothing records) (fun applied ha => ?_)
        fun _ => trivial
      refine keeps_value (keeps_createPrepared ha) fun _ _ => ?_
      refine keeps_value (keeps_commitAll hB ha) fun allWritten _ => ?_
      cases allWritten with
      | true =>
          exact keeps_bind (keeps_ask (keeps_fire _)) (fun _ _ => .done trivial) fun _ => trivial
      | false => exact .done trivial

end Apply

/-! ## Update -/

section Update

/-- An entry of an update whose evidence is that of its lease. -/
structure EntryFrom (P : Origin D) (entry : UpdateEntry D I) : Prop where
  old : RecordFrom P entry.ref entry.old
  applied : P entry.ref.resource entry.ref.lease entry.applied.data

def EntriesFrom (P : Origin D) (entries : List (UpdateEntry D I)) : Prop :=
  ∀ entry ∈ entries, EntryFrom P entry

/-- The mutations of an update, each with the entry it was made for. -/
def UpdatedFrom (P : Origin D) (updated : List (UpdateEntry D I × VerifiedMutation D)) : Prop :=
  ∀ item ∈ updated, EntryFrom P item.1 ∧
    P item.1.ref.resource item.1.ref.lease item.2.persist.data

def ResiduesFrom (P : Origin D) (residues : List (UpdateEntry D I × MutationResidue D)) : Prop :=
  ∀ item ∈ residues, EntryFrom P item.1 ∧ ResidueFrom P item.1.ref item.2

lemma LiveFrom.applied {ref : LiveRef} {live : LiveRecord D I} (h : LiveFrom P ref live)
    {p : PlatformSnapshot D} (hp : live.applied = some p) :
    P ref.resource ref.lease p.data := by
  obtain ⟨record, state⟩ := live
  cases state with
  | committed => exact h.record.applied p hp
  | unmutated => cases hp
  | prepared => cases hp
  | verified mutation => cases hp
  | compensating pending resume => cases hp
  | repair next => cases hp

lemma keeps_resolveAll (hB : B.Guarded) (refs : List LiveRef) :
    (resolveAll B refs : EngineResult D I _).run.Keeps (provenance i P) (IfOk (EntriesFrom P)) := by
  induction refs with
  | nil => exact .done (ifOk_ok (by simp [EntriesFrom]))
  | cons ref refs ih =>
      refine keeps_bind ((keeps_resolveLive hB none).mono fun _ _ _ _ => trivial)
        (fun _ (_ : True) => ?_) fun _ => ifOk_error
      refine keeps_value (keeps_liveGet ref) fun live hl => ?_
      split
      · exact .done ifOk_error
      · next applied ha =>
          refine keeps_bind ih (fun entries he => .done (ifOk_ok ?_)) fun _ => ifOk_error
          exact List.forall_mem_cons.mpr ⟨⟨hl.record, hl.applied ha⟩, he⟩

lemma keeps_verifyOwnership (entries : List (UpdateEntry D I)) :
    (verifyOwnership B entries).run.Keeps (provenance i P) (IfOk fun _ => True) := by
  induction entries with
  | nil => exact .done fun _ _ => trivial
  | cons entry entries ih =>
      refine keeps_bind (keeps_ask (keeps_readback _ _)) (fun current _ => ?_) fun _ => ifOk_error
      refine keeps_bind (keeps_ask (keeps_fire _)) (fun _ _ => ?_) fun _ => ifOk_error
      by_cases lost : B.ownsCurrent entry.applied current = false
      · simp only [if_pos lost]
        exact .done ifOk_error
      · simp only [if_neg lost]
        exact ih

lemma keeps_persistOlds {entries : List (UpdateEntry D I)} (h : EntriesFrom P entries) :
    (persistOlds entries).Keeps (provenance i P) fun _ => True := by
  induction entries with
  | nil => exact .done trivial
  | cons entry entries ih =>
      obtain ⟨head, tail⟩ := List.forall_mem_cons.mp h
      refine (keeps_persistLive head.old).bind fun answer _ => ?_
      match answer with
      | .ok _ => exact ih tail
      | .error error => exact (ih tail).bind fun _ _ => .done trivial

lemma keeps_prepareAll {plan : NormalizedConfig} {entries rest : List (UpdateEntry D I)}
    (h : EntriesFrom P entries) :
    (prepareAll plan entries rest).run.Keeps (provenance i P) (IfOk fun _ => True) := by
  induction rest with
  | nil => exact .done fun _ _ => trivial
  | cons entry rest ih =>
      refine keeps_value (keeps_liveGet entry.ref) fun live hl => ?_
      have record : RecordFrom P entry.ref { live.record with desired := plan, phase := .prepared } :=
        hl.record.revise hl.record.applied
      have unmutated : LiveFrom P entry.ref ⟨_, .unmutated⟩ := ⟨record, trivial⟩
      refine keeps_value (keeps_liveSet unmutated) fun _ _ => ?_
      refine keeps_value (keeps_journalWrite record) fun answer _ => ?_
      match answer with
      | .ok _ => exact ih
      | .error error => exact keeps_value (keeps_persistOlds h) fun _ _ => .done ifOk_error

lemma EntryFrom.at_identity {entry : UpdateEntry D I} (h : EntryFrom P entry) :
    (⟨entry.ref.lease, entry.old.identity.resource⟩ : LiveRef) = entry.ref :=
  h.old.at_identity

lemma keeps_rollbackUpdated (hB : B.Guarded)
    {updated : List (UpdateEntry D I × VerifiedMutation D)} (h : UpdatedFrom P updated) :
    (rollbackUpdated B updated).Keeps (provenance i P) (ResiduesFrom P) := by
  induction updated with
  | nil => exact .done (by simp [ResiduesFrom])
  | cons item updated ih =>
      obtain ⟨⟨head, hm⟩, tail⟩ := List.forall_mem_cons.mp h
      have pending : PendingFrom P ⟨item.1.ref.lease, item.1.old.identity.resource⟩
          ⟨some item.2.persist, item.1.applied⟩ := by
        rw [head.at_identity]
        exact ⟨fun p h => Option.some.inj h ▸ hm, head.applied⟩
      refine (keeps_rollbackProven hB pending).bind fun residue hr => ?_
      rw [head.at_identity] at hr
      exact (ih tail).bind fun residues hrs =>
        .done (List.forall_mem_cons.mpr ⟨⟨head, hr⟩, hrs⟩)

lemma keeps_settleUpdated {entry : UpdateEntry D I} {residue : MutationResidue D}
    (he : EntryFrom P entry) (hr : ResidueFrom P entry.ref residue) :
    (settleUpdated B entry residue).Keeps (provenance i P) fun _ => True := by
  cases residue with
  | pending pending =>
      refine (keeps_retainCompensation hr he.old).bind fun answer _ => ?_
      match answer with
      | .ok _ => exact .done trivial
      | .error error => exact .done trivial
  | restored identity =>
      refine (keeps_persistLive (he.old.revise hr)).bind fun answer _ => ?_
      match answer with
      | .ok _ => exact .done trivial
      | .error error => exact .done trivial
  | unchanged =>
      refine (keeps_persistLive he.old).bind fun answer _ => ?_
      match answer with
      | .ok _ => exact .done trivial
      | .error error => exact .done trivial

lemma keeps_settleAllUpdated {residues : List (UpdateEntry D I × MutationResidue D)}
    (h : ResiduesFrom P residues) :
    (settleAllUpdated B residues).Keeps (provenance i P) fun _ => True := by
  induction residues with
  | nil => exact .done trivial
  | cons item residues ih =>
      obtain ⟨⟨he, hr⟩, tail⟩ := List.forall_mem_cons.mp h
      exact (keeps_settleUpdated he hr).bind fun _ _ => (ih tail).bind fun _ _ => .done trivial

lemma keeps_mutateUpdated (hB : B.Guarded) {plan : NormalizedConfig}
    {updated : List (UpdateEntry D I × VerifiedMutation D)} {rest : List (UpdateEntry D I)}
    (hu : UpdatedFrom P updated) (hr : EntriesFrom P rest) :
    (mutateUpdated B plan updated rest).run.Keeps (provenance i P) (IfOk (UpdatedFrom P)) := by
  induction rest generalizing updated with
  | nil => exact .done (ifOk_ok hu)
  | cons entry rest ih =>
      obtain ⟨head, tail⟩ := List.forall_mem_cons.mp hr
      refine keeps_value (keeps_liveGet entry.ref) fun live hl => ?_
      have prepared : LiveFrom P entry.ref ⟨live.record, .prepared⟩ := ⟨hl.record, trivial⟩
      refine keeps_value (keeps_liveSet prepared) fun _ _ => ?_
      have expected : P entry.old.identity.resource entry.ref.lease entry.applied.data := by
        rw [head.old.identity]
        exact head.applied
      refine keeps_value (keeps_mutateAndVerify hB ⟨entry.ref.lease, false⟩ expected)
        fun answer h => ?_
      rw [head.at_identity] at h
      match answer with
      | .ok mutation =>
          refine ih (fun item hitem => ?_) tail
          rcases List.mem_append.mp hitem with hitem | hitem
          · exact hu item hitem
          · obtain rfl := List.mem_singleton.mp hitem
            exact ⟨head, h⟩
      | .error failure =>
          refine keeps_value (keeps_rollbackUpdated hB hu) fun residues hres => ?_
          refine keeps_value (keeps_fire _) fun _ _ => ?_
          have settled : ResiduesFrom P
              (residues ++ (entry, failure.residue) :: rest.map (·, .unchanged)) := by
            intro item hitem
            rcases List.mem_append.mp hitem with hitem | hitem
            · exact hres item hitem
            rcases List.mem_cons.mp hitem with rfl | hitem
            · exact ⟨head, h⟩
            · obtain ⟨other, hother, rfl⟩ := List.mem_map.mp hitem
              exact ⟨tail other hother, trivial⟩
          exact keeps_value (keeps_settleAllUpdated settled) fun _ _ => .done ifOk_error

lemma keeps_commitUpdated (hB : B.Guarded)
    {updated : List (UpdateEntry D I × VerifiedMutation D)} (h : UpdatedFrom P updated) :
    (commitUpdated B updated).Keeps (provenance i P) fun _ => True := by
  induction updated with
  | nil => exact .done trivial
  | cons item updated ih =>
      obtain ⟨⟨head, hm⟩, tail⟩ := List.forall_mem_cons.mp h
      refine (keeps_commitVerified hB hm).bind fun answer _ => ?_
      match answer with
      | .ok _ => exact ih tail
      | .error error => exact (ih tail).bind fun _ _ => .done trivial

lemma keeps_transactUpdate (hB : B.Guarded) (refs : List LiveRef) (plan : NormalizedConfig) :
    (transactUpdate B refs plan : EngineResult D I _).run.Keeps (provenance i P)
      fun _ => True := by
  refine keeps_bind (keeps_ask (keeps_fire _)) (fun _ _ => ?_) fun _ => trivial
  refine keeps_bind (keeps_resolveAll hB refs) (fun entries he => ?_) fun _ => trivial
  refine keeps_bind (keeps_verifyOwnership entries) (fun _ _ => ?_) fun _ => trivial
  split
  · exact (keeps_ask (keeps_fire _)).mono fun _ _ => trivial
  have mutated : (mutateAll B plan entries).run.Keeps (provenance i P) (IfOk (UpdatedFrom P)) := by
    refine keeps_bind (keeps_prepareAll he) (fun _ _ => ?_) fun _ => ifOk_error
    refine keeps_bind (keeps_ask (keeps_fire _)) (fun _ _ => ?_) fun _ => ifOk_error
    exact keeps_mutateUpdated hB (by simp [UpdatedFrom]) he
  refine keeps_bind mutated (fun updated hu => ?_) fun _ => trivial
  refine keeps_value (keeps_commitUpdated hB hu) fun answer _ => ?_
  match answer with
  | some error => exact .done trivial
  | none => exact (keeps_ask (keeps_fire _)).mono fun _ _ => trivial

end Update

/-! ## Restore and recovery -/

section Restore

variable {ref : LiveRef}

lemma keeps_finishRestore (record : JournalRecord D I) :
    (finishRestore record).run.Keeps (provenance i P) fun _ => True :=
  keeps_bind (keeps_ask (keeps_journalRemove _ _ _))
    (fun _ _ => (keeps_fire _).mono fun _ _ => trivial) fun _ => trivial

lemma keeps_restoreApplied (hB : B.Guarded) {record : JournalRecord D I}
    {applied : PlatformSnapshot D} (hr : RecordFrom P ref record)
    (ha : P ref.resource ref.lease applied.data) :
    (restoreApplied B ref record applied).run.Keeps (provenance i P) fun _ => True := by
  have pending : PendingFrom P ref ⟨some applied, record.before⟩ :=
    ⟨fun p h => Option.some.inj h ▸ ha, hr.before⟩
  have resume : RecordFrom P ref { record with phase := .prepared, applied := none } :=
    hr.revise nofun
  have compensating : ∀ pending, PendingFrom P ref pending → LiveFrom P ref
      ⟨record, .compensating pending { record with phase := .prepared, applied := none }⟩ :=
    fun pending h => ⟨hr, h, resume⟩
  refine keeps_value (keeps_liveSet (compensating _ pending)) fun _ _ => ?_
  have compensated := keeps_compensate (i := i) hB (some .afterRestoreRestore)
    (hr.at_identity.symm ▸ pending)
  rw [hr.at_identity] at compensated
  refine keeps_value compensated fun answer h => ?_
  match answer with
  | (.error error, pending) =>
      exact keeps_value (keeps_retainCompensation h.2 resume) fun _ _ => .done trivial
  | (.ok _, pending) =>
      exact keeps_value (keeps_liveSet (compensating _ h.2)) fun _ _ => keeps_finishRestore record

lemma keeps_restoreOwned (hB : B.Guarded) (current : PlatformSnapshot D) :
    (restoreOwned B ref current : EngineResult D I _).run.Keeps (provenance i P)
      fun _ => True := by
  refine keeps_value (keeps_liveGet ref) fun live hl => ?_
  split
  · exact .done trivial
  · next applied ha =>
      by_cases lost : B.ownsCurrent applied current = false
      · simp only [if_pos lost]
        exact .done trivial
      · simp only [if_neg lost]
        exact keeps_restoreApplied hB hl.record (hl.applied ha)

lemma keeps_restoreLiveState (hB : B.Guarded) :
    (restoreLiveState B ref : EngineResult D I _).run.Keeps (provenance i P) fun _ => True := by
  refine keeps_value (keeps_liveGet ref) fun live hl => ?_
  refine keeps_bind (keeps_ask (keeps_status _ _)) (fun status _ => ?_) fun _ => trivial
  cases status with
  | gone => exact (keeps_journalRemove _ _ _).mono fun _ _ => trivial
  | replaced => exact (keeps_journalRemove _ _ _).mono fun _ _ => trivial
  | ambiguous => exact .done trivial
  | same =>
  refine keeps_value (keeps_readback _ _) fun answer _ => ?_
  split
  · exact (keeps_journalRemove _ _ _).mono fun _ _ => trivial
  · exact .done trivial
  refine keeps_bind (keeps_ask (keeps_fire _)) (fun _ _ => ?_) fun _ => trivial
  split
  · exact keeps_finishRestore _
  split
  · exact keeps_restoreOwned hB _
  refine keeps_bind ((keeps_resolveLive hB _).mono fun _ _ _ _ => trivial) (fun _ (_ : True) => ?_)
    fun _ => trivial
  refine keeps_value (keeps_liveGet ref) fun live hl => ?_
  refine keeps_bind (keeps_ask (keeps_readback _ _)) (fun current _ => ?_) fun _ => trivial
  split
  · exact keeps_finishRestore _
  · exact keeps_restoreOwned hB _

lemma keeps_finishRecovery (record : JournalRecord D I) (outcome : RecoveryOutcome) :
    (finishRecovery record outcome).run.Keeps (provenance i P) fun _ => True :=
  keeps_bind (keeps_ask (keeps_journalRemove _ _ _))
    (fun _ _ => keeps_bind (keeps_ask (keeps_fire _)) (fun _ _ => .done trivial) fun _ => trivial)
    fun _ => trivial

lemma keeps_recoverOwned (hB : B.Guarded) {record : JournalRecord D I}
    (hr : RecordFrom P ⟨record.leaseId, record.resource⟩ record) :
    (recoverOwned B record).run.Keeps (provenance i P) fun _ => True := by
  have pending : PendingFrom P ⟨record.leaseId, record.resource⟩ ⟨record.applied, record.before⟩ :=
    ⟨hr.applied, hr.before⟩
  have compensated := keeps_compensate (i := i) hB (some .afterRecoveryRestore)
    (hr.at_identity.symm ▸ pending)
  rw [hr.at_identity] at compensated
  refine keeps_value compensated fun answer h => ?_
  match answer with
  | (.error error, pending) =>
      have revised : RecordFrom P ⟨record.leaseId, record.resource⟩
          { record with phase := .prepared, applied := pending.evidence } :=
        hr.revise h.2.evidence
      refine keeps_bind (keeps_ask (keeps_journalWrite revised)) (fun _ _ => ?_) fun _ => trivial
      split
      · exact .done trivial
      · exact .done trivial
  | (.ok _, _) => exact keeps_finishRecovery record _

lemma keeps_recoverRecord (hB : B.Guarded) {record : JournalRecord D I}
    (hr : RecordFrom P ⟨record.leaseId, record.resource⟩ record) :
    (recoverRecord B record).run.Keeps (provenance i P) fun _ => True := by
  have removed : ∀ outcome : RecoveryOutcome, ((do
      ask (journalRemove record.leaseId record.resource .lifetime)
      return outcome : EngineResult D I _)).run.Keeps (provenance i P) fun _ => True := fun _ =>
    keeps_bind (keeps_ask (keeps_journalRemove _ _ _)) (fun _ _ => .done trivial) fun _ => trivial
  refine keeps_bind (keeps_ask (keeps_status _ _)) (fun status _ => ?_) fun _ => trivial
  cases status with
  | gone => exact removed _
  | replaced => exact removed _
  | ambiguous => exact .done trivial
  | same =>
  refine keeps_value (keeps_capture _) fun answer _ => ?_
  split
  · exact removed _
  · exact .done trivial
  refine keeps_bind (keeps_ask (keeps_fire _)) (fun _ _ => ?_) fun _ => trivial
  split
  · exact keeps_finishRecovery record _
  split
  · exact keeps_recoverOwned hB hr
  · exact .done trivial

lemma keeps_recoverForResource (hB : B.Guarded) {owner : String} {record : JournalRecord D I}
    (hr : RecordFrom P ⟨record.leaseId, record.resource⟩ record) :
    (recoverForResource B owner record).Keeps (provenance i P) fun _ => True := by
  unfold recoverForResource
  split
  · exact .done trivial
  · refine (keeps_recoverRecord hB hr).bind fun answer _ => ?_
    split <;> exact .done trivial

end Restore

end Osdns
