import Osdns.Model.Calls

/-!
# The transaction engine

The transactional half of `manager.rs` and the guarded operations of `platform/mod.rs`, as
programs over `EngineOp`: mutation with verification, compensation, the apply and update
transactions, and the transitions of a live record.

Every definition carries the name of the function of the source it embeds, in camel case, and
keeps its order of calls.  `mutateAndVerify`, `compensate` and `rollbackProven` take the lease
they work for as an extra argument, only to label the mutation.  A `for` loop of the source is a
recursion over its list, with the part already handled as an accumulator.
-/

namespace Osdns

open Interaction
open Interaction.Fallible (ask value attempt)
open Engine

variable {D I : Type} (B : Backend D)

/-! ## Guarded operations -/

/-- `apply_bound`: applies through the incarnation-checked path. -/
def applyBound (cause : Cause) (identity : ResourceIdentity I) (expected : PlatformSnapshot D)
    (plan : NormalizedConfig) : Engine D I (MutationAttempt D) := do
  match ← resourceStatus .forward identity with
  | .error error => return .rejected error
  | .ok .same =>
      match B.mutationGuard with
      | .compareAndMutate => applyGuarded cause identity.resource expected plan
      | .unconditional =>
          match ← readback .forward identity.resource with
          | .error error => return .rejected error
          | .ok current =>
              if B.equivalent expected current then
                match ← resourceStatus .forward identity with
                | .ok .same => return .fromApplyResult (← apply cause identity.resource plan)
                | .ok status =>
                    return .rejected (.resourceIdentity B.kind identity.resource
                      s!"resource incarnation became {status.debug} before mutation")
                | .error error => return .rejected error
              else
                return .rejected (.externalModification identity.resource
                  "the current state changed since it was captured")
  | .ok status =>
      return .rejected (.resourceIdentity B.kind identity.resource
        s!"resource incarnation is {status.debug}; refusing mutation")

/-- `restore_bound`: restores through the incarnation-checked path. -/
def restoreBound (cause : Cause) (identity : ResourceIdentity I)
    (expected target : PlatformSnapshot D) : Engine D I (MutationAttempt D) := do
  match ← resourceStatus .compensation identity with
  | .error error => return .rejected error
  | .ok .same =>
      match B.mutationGuard with
      | .compareAndMutate => restoreGuarded cause identity.resource expected target
      | .unconditional =>
          match ← readback .compensation identity.resource with
          | .error error => return .rejected error
          | .ok current =>
              if B.ownsCurrent expected current then
                match ← resourceStatus .compensation identity with
                | .ok .same =>
                    match ← restore cause identity.resource target with
                    | .ok _ => return .performed none
                    | .error error => return .indeterminate error none
                | .ok status =>
                    return .rejected (.resourceIdentity B.kind identity.resource
                      s!"resource incarnation became {status.debug} before restore")
                | .error error => return .rejected error
              else
                return .rejected (.externalModification identity.resource
                  "the current state changed since ownership was verified")
  | .ok status =>
      return .rejected (.resourceIdentity B.kind identity.resource
        s!"resource incarnation is {status.debug}; refusing restore")

/-! ## Compensation -/

/-- The last part of `compensate`: reads back what a restore produced. -/
def verifyCompensation (identity : ResourceIdentity I) (pending : PendingRollback D) :
    EngineResult D I (Option (PlatformSnapshot D)) := do
  let now ← ask (readback .compensation identity.resource)
  let status ← ask (resourceStatus .compensation identity)
  if status ≠ .same ∨ B.equivalent now pending.target = false then
    throw (.verificationFailed identity.resource "compensation failed read-back verification")
  match pending.evidence.filter (B.ownsCurrent · now) with
  | some proof => return some proof
  | none =>
      return if pending.evidence.isNone ∧ B.ownershipIdentity = .bestEffort then some now
        else none

/-- `compensate`: carries out a pending rollback.  The second component of the answer is the
rollback after the call (`&mut PendingRollback`): a restore may have issued newer evidence even
when the call fails. -/
def compensate (lease : LeaseId) (identity : ResourceIdentity I) (pending : PendingRollback D)
    (afterRestore : Option TxPoint) :
    Engine D I (Except Error (Option (PlatformSnapshot D)) × PendingRollback D) := do
  match ← resourceStatus .compensation identity with
  | .error error => return (.error error, pending)
  | .ok status =>
  if status ≠ .same then
    return (.error (.resourceIdentity B.kind identity.resource
      "cannot prove the compensation target incarnation"), pending)
  else
  match ← readback .compensation identity.resource with
  | .error error => return (.error error, pending)
  | .ok current =>
  if B.equivalent current pending.target then
    -- A target match needs no write and grants no new ownership identity.
    match pending.evidence.filter (B.ownsCurrent · current) with
    | some proof => return (.ok (some proof), pending)
    | none =>
        return (.ok (if B.ownsCurrent pending.target current then some pending.target else none),
          pending)
  else
  match pending.evidence with
  | none =>
      return (.error (.indeterminateMutation B.kind
        "compensation has no backend-issued ownership evidence"), pending)
  | some proof =>
  if B.ownsCurrent proof current = false then
    return (.error (.externalModification identity.resource
      "pending compensation evidence no longer names current state"), pending)
  else
  match ← restoreBound B ⟨lease, false⟩ identity proof pending.target with
  | .rejected error => return (.error error, pending)
  | .indeterminate error none => return (.error error, pending)
  | .indeterminate error (some produced) =>
      return (.error error, { pending with evidence := some produced })
  | .performed produced =>
      let pending := { pending with evidence := produced }
      match afterRestore with
      | none => return (← (verifyCompensation B identity pending).run, pending)
      | some point =>
          match ← fire point with
          | .error error => return (.error error, pending)
          | .ok _ => return (← (verifyCompensation B identity pending).run, pending)

/-- `rollback_proven`: compensates a mutation, and keeps what is left when that fails. -/
def rollbackProven (lease : LeaseId) (identity : ResourceIdentity I)
    (proof : Option (PlatformSnapshot D)) (target : PlatformSnapshot D) :
    Engine D I (MutationResidue D) := do
  match ← compensate B lease identity ⟨proof, target⟩ none with
  | (.ok restored, _) => return .restored restored
  | (.error _, pending) => return .pending pending

/-! ## Mutation and verification -/

/-- The way out of `mutate_and_verify` once the mutation may have happened. -/
def failMutation (lease : LeaseId) (identity : ResourceIdentity I)
    (expectedCurrent : PlatformSnapshot D) (produced : Option (PlatformSnapshot D))
    (error : Error) : Engine D I (Except (MutationFailure D) (VerifiedMutation D)) := do
  return .error ⟨error, ← rollbackProven B lease identity produced expectedCurrent⟩

/-- `mutate_and_verify`: applies `plan` over `expectedCurrent` and verifies by read-back. -/
def mutateAndVerify (cause : Cause) (identity : ResourceIdentity I)
    (expectedCurrent : PlatformSnapshot D) (plan : NormalizedConfig) (points : MutatePoints) :
    Engine D I (Except (MutationFailure D) (VerifiedMutation D)) := do
  let resource := identity.resource
  let fail := failMutation B cause.lease identity expectedCurrent
  match ← applyBound B cause identity expectedCurrent plan with
  | .rejected error => return .error ⟨error, .unchanged⟩
  | .indeterminate error produced => fail produced error
  | .performed produced =>
  match ← fire points.apply with
  | .error error => fail produced error
  | .ok _ =>
  match ← resourceStatus .forward identity with
  | .error error => fail produced error
  | .ok status =>
  if status ≠ .same then
    fail produced (.resourceIdentity B.kind resource
      s!"resource incarnation became {status.debug} during mutation")
  else
  match ← readback .forward resource with
  | .error error => fail produced error
  | .ok actual =>
  match ← fire points.readback with
  | .error error => fail produced error
  | .ok _ =>
  if B.matchesDesired actual plan = false then
    fail produced (.verificationFailed resource
      "the state read back from the system does not match the desired configuration")
  else
  match ← resourceStatus .forward identity with
  | .error error => fail produced error
  | .ok status =>
  if status ≠ .same then
    fail produced (.resourceIdentity B.kind resource
      s!"resource incarnation became {status.debug} during verification")
  else
  match ← fire points.verify with
  | .error error => fail produced error
  | .ok _ =>
  match B.ownershipIdentity with
  | .bestEffort => return .ok ⟨produced.map OwnershipProof.mk, actual⟩
  | .durable =>
  match produced with
  | none =>
      fail none (.verificationFailed resource "the mutation issued no ownership proof")
  | some proof =>
  if B.provesCurrent proof actual = false then
    fail (some proof) (.externalModification resource
      "the state read back does not carry the identity of our mutation")
  else
    return .ok ⟨some ⟨proof⟩, actual⟩

/-! ## Transitions of a live record -/

/-- `persist_live`: publishes a verified state or intent. -/
def persistLive (ref : LiveRef) (candidate : JournalRecord D I) : EngineResult D I Unit := do
  let next : LiveState D I := if candidate.phase = .applied then .committed else .unmutated
  match ← value (journalWrite candidate) with
  | .ok _ => value (liveSet ref ⟨candidate, next⟩)
  | .error error =>
      value (liveSet ref ⟨candidate, .repair next⟩)
      throw error

/-- `prepare_live`: replaces the previous record with a durable `Prepared` intent. -/
def prepareLive (ref : LiveRef) (candidate : JournalRecord D I) : EngineResult D I Unit := do
  let old ← value (liveGet ref)
  match ← value (journalWrite candidate) with
  | .ok _ => value (liveSet ref ⟨candidate, .unmutated⟩)
  | .error error =>
      match ← value (journalWrite old.record) with
      | .ok _ => throw error
      | .error _ =>
          value (liveSet ref { old with state := .repair old.state })
          throw error

/-- `retain_compensation`: keeps an unresolved rollback, in memory and as published evidence. -/
def retainCompensation (ref : LiveRef) (pending : PendingRollback D)
    (resume : JournalRecord D I) : EngineResult D I Unit := do
  let live ← value (liveGet ref)
  let record :=
    { live.record with phase := .prepared, applied := pending.evidence, desired := resume.desired }
  value (liveSet ref ⟨record, .compensating pending resume⟩)
  match ← value (journalWrite record) with
  | .ok _ => return
  | .error error =>
      value (liveSet ref ⟨record, .repair (.compensating pending resume)⟩)
      throw error

/-- The `Verified` branch of `resolve_live`: publishes the verified mutation. -/
def finalizeVerified (ref : LiveRef) (live : LiveRecord D I) (mutation : VerifiedMutation D)
    (current : Option (PlatformSnapshot D)) : EngineResult D I Unit := do
  let current ←
    match current with
    | some current => pure current
    | none => ask (readback .forward live.record.resource)
  let status ← ask (resourceStatus .forward live.record.identity)
  if status ≠ .same ∨ B.ownsCurrent mutation.persist current = false then
    throw (.externalModification live.record.resource
      "verified mutation no longer names current native state")
  let candidate := { live.record with phase := .applied, applied := some mutation.persist }
  ask (journalWrite candidate)
  value (liveSet ref ⟨candidate, .committed⟩)

/-- The record a resolved compensation resumes with. -/
def resumeWith (resume : JournalRecord D I) (identity : Option (PlatformSnapshot D)) :
    JournalRecord D I :=
  if resume.phase = .applied then
    { resume with
      applied := identity
      phase := if identity.isNone then .prepared else .applied }
  else resume

/-- The `Compensating` branch of `resolve_live`: retries the rollback. -/
def resolveCompensation (ref : LiveRef) (live : LiveRecord D I) (pending : PendingRollback D)
    (resume : JournalRecord D I) : EngineResult D I Unit := do
  match ← value (compensate B ref.lease live.record.identity pending none) with
  | (.ok identity, _) => persistLive ref (resumeWith resume identity)
  | (.error error, pending) =>
      -- A restoration attempt may have issued a newer identity.
      let _ ← attempt (retainCompensation ref pending resume)
      throw error

/-- `resolve_live`: finishes whatever publication or compensation is outstanding. -/
def resolveLive (ref : LiveRef) (current : Option (PlatformSnapshot D)) :
    EngineResult D I Unit := do
  let live ← value (liveGet ref)
  let live ←
    match live.state with
    | .repair next =>
        ask (journalWrite live.record)
        value (liveSet ref { live with state := next })
        pure { live with state := next }
    | _ => pure live
  match live.state with
  | .committed => return
  | .unmutated => return
  | .prepared =>
      throw (.externalModification live.record.resource
        "prepared intent has no verified applied mutation")
  | .verified mutation => finalizeVerified B ref live mutation current
  | .compensating pending resume => resolveCompensation B ref live pending resume
  | .repair _ => throw (.panicked "journal repair is resolved first")

/-- `commit_verified`: records a verified mutation and publishes it. -/
def commitVerified (ref : LiveRef) (mutation : VerifiedMutation D) : EngineResult D I Unit := do
  let live ← value (liveGet ref)
  value (liveSet ref { live with state := .verified mutation })
  resolveLive B ref none

end Osdns
