import Osdns.Model.Transaction

/-!
# Apply, update, restore and recovery of locked resources

The second half of the transaction engine of `manager.rs`: what runs over resources that are
already locked.  Locks, registration and lease handles are added in `Model/Manager.lean` and
`Model/Lease.lean`.
-/

namespace Osdns

open Interaction
open Interaction.Fallible (ask value attempt)
open Engine

variable {D I : Type} (B : Backend D)

/-! ## Apply -/

/-- Removes the records of resources that were never mutated, and collects what failed. -/
def removeRecords : List (JournalRecord D I) → Engine D I (List Error)
  | [] => return []
  | record :: records => do
      match ← journalRemove record.leaseId record.resource .settled with
      | .ok _ => removeRecords records
      | .error error => return error :: (← removeRecords records)

/-- The loop of `persist_unmutated`; `written` are the records published so far. -/
def persistUnmutatedFrom (written : List (JournalRecord D I)) :
    List (JournalRecord D I) → EngineResult D I Unit
  | [] => return
  | record :: records => do
      match ← value (journalWrite record) with
      | .ok _ => persistUnmutatedFrom (written ++ [record]) records
      | .error primary =>
          -- Failed publication may already be visible, but no native mutation has begun.
          let cleanup ← value (removeRecords (written ++ [record]))
          throw (transactionError primary cleanup)

/-- `persist_unmutated`: publishes all records of an apply, or withdraws them. -/
def persistUnmutated (records : List (JournalRecord D I)) : EngineResult D I Unit :=
  persistUnmutatedFrom [] records

/-- The records an apply starts with. -/
def initialRecords (owner : String) (leaseId : LeaseId) (plan : NormalizedConfig)
    (wasNoop : Bool) (observations : List (ResourceId × BoundObservation D I)) :
    List (JournalRecord D I) :=
  observations.map fun (resource, observation) =>
    { owner
      leaseId
      resource
      backend := B.kind
      identity := observation.identity
      phase := if wasNoop then .applied else .prepared
      before := observation.snapshot
      desired := plan
      applied := if wasNoop then some observation.snapshot else none }

/-- Rolls one mutated resource of a failed apply back to its `before`. -/
def rollbackApplied (record : JournalRecord D I) (mutation : VerifiedMutation D) :
    Engine D I (List Error) := do
  match ← rollbackProven B record.leaseId record.identity (some mutation.persist) record.before with
  | .restored _ =>
      match ← journalRemove record.leaseId record.resource .settled with
      | .ok _ => return []
      | .error error => return [error]
  | .pending pending =>
      let indeterminate : Error := .indeterminateMutation B.kind
        s!"apply rollback could not restore {record.resource.asStr}"
      match ← journalWrite { record with applied := pending.evidence } with
      | .ok _ => return [indeterminate]
      | .error error => return [error, indeterminate]
  | .unchanged => return [.panicked "rollback_proven never reports an unchanged resource"]

/-- Rolls back the resources an apply had already mutated. -/
def rollbackAllApplied :
    List (JournalRecord D I × VerifiedMutation D) → Engine D I (List Error)
  | [] => return []
  | (record, mutation) :: rest => do
      let first ← rollbackApplied B record mutation
      return first ++ (← rollbackAllApplied rest)

/-- Settles the record of the resource whose mutation failed. -/
def settleFailed (failed : JournalRecord D I) (residue : MutationResidue D) :
    Engine D I (List Error) := do
  match residue with
  | .pending pending =>
      match ← journalWrite { failed with applied := pending.evidence } with
      | .ok _ => return []
      | .error error => return [error]
  | _ =>
      match ← readback .forward failed.resource with
      | .error _ => return []
      | .ok now =>
          if B.equivalent now failed.before then
            match ← journalRemove failed.leaseId failed.resource .settled with
            | .ok _ => return []
            | .error error => return [error]
          else return []

/-- The mutation loop of `transact_with_locks`; `applied` are the resources mutated so far. -/
def mutateApplied (plan : NormalizedConfig)
    (applied : List (JournalRecord D I × VerifiedMutation D)) :
    List (JournalRecord D I) → EngineResult D I (List (JournalRecord D I × VerifiedMutation D))
  | [] => return applied
  | record :: records => do
      match ← value (mutateAndVerify B ⟨record.leaseId, false⟩ record.identity record.before plan
        initialPoints) with
      | .ok mutation => mutateApplied plan (applied ++ [(record, mutation)]) records
      | .error failure =>
          let rolledBack ← value (rollbackAllApplied B applied)
          let settled ← value (settleFailed B record failure.residue)
          let removed ← value (removeRecords records)
          throw (transactionError failure.error (rolledBack ++ settled ++ removed))

/-- Creates a live record. -/
def createLive (record : JournalRecord D I) (state : LiveState D I) : Engine D I Unit :=
  liveSet ⟨record.leaseId, record.resource⟩ ⟨record, state⟩

/-- Creates the live records of an apply that mutated nothing. -/
def createCommitted : List (JournalRecord D I) → Engine D I Unit
  | [] => return
  | record :: records => do
      createLive record .committed
      createCommitted records

/-- Creates the live records of the mutated resources. -/
def createPrepared : List (JournalRecord D I × VerifiedMutation D) → Engine D I Unit
  | [] => return
  | (record, _) :: rest => do
      createLive record .prepared
      createPrepared rest

/-- Commits the mutations of an apply; answers whether every record was published. -/
def commitAll : List (JournalRecord D I × VerifiedMutation D) → Engine D I Bool
  | [] => return true
  | (record, mutation) :: rest => do
      match ← (commitVerified B ⟨record.leaseId, record.resource⟩ mutation).run with
      | .ok _ => commitAll rest
      | .error _ =>
          let _ ← commitAll rest
          return false

/-- The result of `transact_with_locks`: live records exist for `resources`. -/
structure PreparedLease where
  leaseId : LeaseId
  resources : List ResourceId
  wasNoop : Bool

/-- `transact_with_locks`: runs one apply transaction over locked resources. -/
def transactWithLocks (owner : String) (plan : NormalizedConfig)
    (observations : List (ResourceId × BoundObservation D I)) :
    EngineResult D I PreparedLease := do
  let leaseId ← value newLeaseId
  let wasNoop := observations.all fun entry => B.matchesDesired entry.2.snapshot plan
  let records := initialRecords B owner leaseId plan wasNoop observations
  persistUnmutated records
  if wasNoop then
    ask (fire .afterApplied)
    value (createCommitted records)
    return ⟨leaseId, records.map (·.resource), true⟩
  else
    ask (fire .afterPrepared)
    let applied ← mutateApplied B plan [] records
    value (createPrepared applied)
    let allWritten ← value (commitAll B applied)
    if allWritten then ask (fire .afterApplied)
    return ⟨leaseId, records.map (·.resource), false⟩

/-! ## Update -/

/-- A resource of a lease under update: its live record, the record before the update, and the
verified state the update starts from. -/
structure UpdateEntry (D I : Type) where
  ref : LiveRef
  old : JournalRecord D I
  applied : PlatformSnapshot D

/-- The first loop of `transact_update`: resolves every record and takes its verified state. -/
def resolveAll : List LiveRef → EngineResult D I (List (UpdateEntry D I))
  | [] => return []
  | ref :: refs => do
      resolveLive B ref none
      let live ← value (liveGet ref)
      match live.applied with
      | none =>
          throw (.externalModification live.record.resource
            ("the lease record carries no verified applied state; " ++
              "refusing to overwrite indeterminate state"))
      | some applied => return ⟨ref, live.record, applied⟩ :: (← resolveAll refs)

/-- The second loop: nothing is mutated until every resource is proven still ours. -/
def verifyOwnership : List (UpdateEntry D I) → EngineResult D I Unit
  | [] => return
  | entry :: entries => do
      let current ← ask (readback .forward entry.old.resource)
      ask (fire .afterUpdateCapture)
      if B.ownsCurrent entry.applied current = false then
        throw (.externalModification entry.old.resource
          "the current state no longer matches the state applied by this lease")
      verifyOwnership entries

/-- Publishes every record as it was before the update, and collects what failed. -/
def persistOlds : List (UpdateEntry D I) → Engine D I (List Error)
  | [] => return []
  | entry :: entries => do
      match ← (persistLive entry.ref entry.old).run with
      | .ok _ => persistOlds entries
      | .error error => return error :: (← persistOlds entries)

/-- The third loop: persists the prepared intent of every resource before mutating any.  On a
failed write all the records of the update, `entries`, return to their old form. -/
def prepareAll (plan : NormalizedConfig) (entries : List (UpdateEntry D I)) :
    List (UpdateEntry D I) → EngineResult D I Unit
  | [] => return
  | entry :: rest => do
      let live ← value (liveGet entry.ref)
      -- `applied` still carries the previous applied state, so that recovery rolls back to it.
      let record := { live.record with desired := plan, phase := .prepared }
      value (liveSet entry.ref ⟨record, .unmutated⟩)
      match ← value (journalWrite record) with
      | .ok _ => prepareAll plan entries rest
      | .error error =>
          let cleanup ← value (persistOlds entries)
          throw (transactionError error cleanup)

/-- Rolls back the resources an update had already mutated. -/
def rollbackUpdated :
    List (UpdateEntry D I × VerifiedMutation D) →
      Engine D I (List (UpdateEntry D I × MutationResidue D))
  | [] => return []
  | (entry, mutation) :: rest => do
      let residue ← rollbackProven B entry.ref.lease entry.old.identity (some mutation.persist)
        entry.applied
      return (entry, residue) :: (← rollbackUpdated rest)

/-- Settles one record of a failed update by what its resource was left with. -/
def settleUpdated (entry : UpdateEntry D I) (residue : MutationResidue D) :
    Engine D I (List Error) := do
  match residue with
  | .pending pending =>
      let indeterminate : Error := .indeterminateMutation B.kind
        s!"update rollback could not restore {entry.old.resource.asStr}"
      match ← (retainCompensation entry.ref pending entry.old).run with
      | .ok _ => return [indeterminate]
      | .error error => return [error, indeterminate]
  | .restored identity =>
      -- Without new evidence, the old identity cannot authorize another mutation after a
      -- restore changed its generation.
      let candidate :=
        { entry.old with
          applied := identity
          phase := if identity.isNone then .prepared else entry.old.phase }
      match ← (persistLive entry.ref candidate).run with
      | .ok _ => return []
      | .error error => return [error]
  | .unchanged =>
      match ← (persistLive entry.ref entry.old).run with
      | .ok _ => return []
      | .error error => return [error]

/-- Settles all the records of a failed update. -/
def settleAllUpdated :
    List (UpdateEntry D I × MutationResidue D) → Engine D I (List Error)
  | [] => return []
  | (entry, residue) :: rest => do
      let first ← settleUpdated B entry residue
      return first ++ (← settleAllUpdated rest)

/-- The mutation loop of `transact_update`; `updated` are the resources mutated so far. -/
def mutateUpdated (plan : NormalizedConfig)
    (updated : List (UpdateEntry D I × VerifiedMutation D)) :
    List (UpdateEntry D I) → EngineResult D I (List (UpdateEntry D I × VerifiedMutation D))
  | [] => return updated
  | entry :: rest => do
      let live ← value (liveGet entry.ref)
      value (liveSet entry.ref { live with state := .prepared })
      match ← value (mutateAndVerify B ⟨entry.ref.lease, false⟩ entry.old.identity entry.applied plan
        updatePoints) with
      | .ok mutation => mutateUpdated plan (updated ++ [(entry, mutation)]) rest
      | .error failure =>
          let residues ← value (rollbackUpdated B updated)
          let _ ← value (fire .afterUpdateVerify)
          let cleanup ← value (settleAllUpdated B
            (residues ++ (entry, failure.residue) :: rest.map (·, .unchanged)))
          throw (transactionError failure.error cleanup)

/-- The last loop of `transact_update`; answers the first error. -/
def commitUpdated : List (UpdateEntry D I × VerifiedMutation D) → Engine D I (Option Error)
  | [] => return none
  | (entry, mutation) :: rest => do
      match ← (commitVerified B entry.ref mutation).run with
      | .ok _ => commitUpdated rest
      | .error error =>
          let _ ← commitUpdated rest
          return some error

/-- Moves every resource of an update to `plan`: prepares all, then mutates and verifies each. -/
def mutateAll (plan : NormalizedConfig) (entries : List (UpdateEntry D I)) :
    EngineResult D I (List (UpdateEntry D I × VerifiedMutation D)) := do
  prepareAll plan entries entries
  ask (fire .afterUpdatePrepared)
  mutateUpdated B plan [] entries

/-- Publishes the verified mutations of an update. -/
def publishUpdate (updated : List (UpdateEntry D I × VerifiedMutation D)) :
    EngineResult D I Unit := do
  match ← value (commitUpdated B updated) with
  | some error => throw error
  | none => ask (fire .afterUpdateApplied)

/-- `transact_update`: moves every owned resource to `plan` as one transaction. -/
def transactUpdate (refs : List LiveRef) (plan : NormalizedConfig) : EngineResult D I Unit := do
  ask (fire .afterUpdateResolve)
  let entries ← resolveAll B refs
  verifyOwnership B entries
  if entries.all fun entry => B.matchesDesired entry.applied plan then
    ask (fire .afterUpdateNoopCheck)
  else
    let updated ← mutateAll B plan entries
    publishUpdate B updated

/-! ## Restore -/

/-- Removes the record of a restored resource. -/
def finishRestore (record : JournalRecord D I) : EngineResult D I Unit := do
  ask (journalRemove record.leaseId record.resource .settled)
  ask (fire .afterRestoreJournal)

/-- The end of `restore_live_state`: restores `before` over the verified state `applied`. -/
def restoreApplied (ref : LiveRef) (record : JournalRecord D I) (applied : PlatformSnapshot D) :
    EngineResult D I Unit := do
  let pending : PendingRollback D := ⟨some applied, record.before⟩
  let resume := { record with phase := .prepared, applied := none }
  -- Recorded before the backend is called: errors must keep the latest restoration identity.
  value (liveSet ref ⟨record, .compensating pending resume⟩)
  match ← value (compensate B ref.lease record.identity pending (some .afterRestoreRestore)) with
  | (.error error, pending) =>
      let _ ← attempt (retainCompensation ref pending resume)
      throw error
  | (.ok _, pending) =>
      value (liveSet ref ⟨record, .compensating pending resume⟩)
      finishRestore record

/-- The middle of `restore_live_state`: a record with a verified state that owns `current`. -/
def restoreOwned (ref : LiveRef) (current : PlatformSnapshot D) : EngineResult D I Unit := do
  let live ← value (liveGet ref)
  match live.applied with
  | none =>
      throw (.externalModification live.record.resource
        ("the lease record carries no verified applied state; " ++
          "refusing to overwrite indeterminate state"))
  | some applied =>
      if B.ownsCurrent applied current = false then
        throw (.externalModification live.record.resource
          ("the current state is neither the state applied by this lease nor the original " ++
            "state"))
      restoreApplied B ref live.record applied

/-- `restore_live_state`: restores one resource of a live lease to its `before`. -/
def restoreLiveState (ref : LiveRef) : EngineResult D I Unit := do
  let live ← value (liveGet ref)
  let record := live.record
  match ← ask (resourceStatus .forward record.identity) with
  | .gone => ask (journalRemove record.leaseId record.resource .lifetime)
  | .replaced => ask (journalRemove record.leaseId record.resource .lifetime)
  | .ambiguous =>
      throw (.resourceIdentity B.kind record.resource
        ("the backend cannot prove that the current target is the leased native resource " ++
          "incarnation"))
  | .same =>
  match ← value (readback .forward record.resource) with
  | .error (.resourceGone _ _ _) =>
      ask (journalRemove record.leaseId record.resource .lifetime)
  | .error error => throw error
  | .ok current =>
  ask (fire .afterRestoreReadback)
  if B.equivalent current record.before then finishRestore record
  else
  match live.state with
  | .committed => restoreOwned B ref current
  | _ =>
      resolveLive B ref (some current)
      let live ← value (liveGet ref)
      let current ← ask (readback .forward live.record.resource)
      if B.equivalent current live.record.before then finishRestore live.record
      else restoreOwned B ref current

/-! ## Recovery -/

/-- Finishes the recovery of a record whose native state is settled. -/
def finishRecovery (record : JournalRecord D I) (outcome : RecoveryOutcome) :
    EngineResult D I RecoveryOutcome := do
  ask (journalRemove record.leaseId record.resource .settled)
  ask (fire .afterRecoveryJournal)
  return outcome

/-- The part of `recover_record` that restores `before` over the recorded evidence. -/
def recoverOwned (record : JournalRecord D I) : EngineResult D I RecoveryOutcome := do
  match ← value (compensate B record.leaseId record.identity ⟨record.applied, record.before⟩
    (some .afterRecoveryRestore)) with
  | (.error error, pending) =>
      ask (journalWrite { record with phase := .prepared, applied := pending.evidence })
      if error.isExternalModification then
        return .externalConflict record.resource record.leaseId
      else throw error
  | (.ok _, _) => finishRecovery record (.restored record.resource record.leaseId)

/-- `recover_record`: recovers one journal record from its published evidence. -/
def recoverRecord (record : JournalRecord D I) : EngineResult D I RecoveryOutcome := do
  match ← ask (resourceStatus .forward record.identity) with
  | .gone =>
      ask (journalRemove record.leaseId record.resource .lifetime)
      return .gone record.resource record.leaseId
  | .replaced =>
      ask (journalRemove record.leaseId record.resource .lifetime)
      return .replaced record.resource record.leaseId
  | .ambiguous => return .identityMismatch record.resource record.leaseId
  | .same =>
  match ← value (capture record.resource) with
  | .error (.resourceGone _ _ _) =>
      ask (journalRemove record.leaseId record.resource .lifetime)
      return .gone record.resource record.leaseId
  | .error error => throw error
  | .ok current =>
  ask (fire .afterRecoveryReadback)
  if B.equivalent current record.before then
    finishRecovery record (.journalCleared record.resource record.leaseId)
  else if record.applied.any (B.ownsCurrent · current) then recoverOwned B record
  else return .externalConflict record.resource record.leaseId

/-- `recover_for_resource`: recovery of a stale record in the way of an apply. -/
def recoverForResource (owner : String) (record : JournalRecord D I) :
    Engine D I (Except RecoverBlock Unit) := do
  if record.owner ≠ owner then
    return .error (.conflict s!"journal belongs to application owner {record.owner}")
  else
  match ← (recoverRecord B record).run with
  | .ok (.externalConflict _ _) =>
      return .error (.conflict ("the current state matches neither the journal's applied state " ++
        "nor its original state"))
  | .ok (.identityMismatch _ _) =>
      return .error (.conflict
        "the recorded native resource incarnation cannot be recovered safely")
  | .ok _ => return .ok ()
  | .error (.journalCorrupt message) => return .error (.journal (.journalCorrupt message))
  | .error error => return .error (.conflict error.text)

end Osdns
