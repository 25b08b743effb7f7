import Osdns.Model.Lease

/-!
# Managers

The public operations of `DnsManager` that create or recover ownership: `apply`,
`recover_stale` and `abandon_journal`.  A lock is released where the source drops its guard.
-/

namespace Osdns

open Interaction
open Interaction.Fallible (ask value attempt)

variable {D I : Type} (M : Manager D)

/-! ## Locks -/

/-- The loop of `acquire_all`; `held` are the locks acquired so far, released on failure. -/
def acquireSorted (held : List ResourceId) :
    List ResourceId → ManagedResult D I (List ResourceId)
  | [] => return held
  | resource :: resources => do
      match ← value (Managed.acquire resource) with
      | .ok _ => acquireSorted (held ++ [resource]) resources
      | .error error =>
          value (releaseAll held)
          throw error

/-- `acquire_all`: locks every resource, in sorted order. -/
def acquireAll (resources : List ResourceId) : ManagedResult D I (List ResourceId) :=
  acquireSorted [] (sortResources resources).dedup

/-! ## Apply -/

/-- Recovers the stale record, if any, of each resource of an apply. -/
def recoverResources (journals : List (JournalRecord D I)) :
    List ResourceId → ManagedResult D I Unit
  | [] => return
  | resource :: resources => do
      match journals.find? (·.resource = resource) with
      | none => recoverResources journals resources
      | some record =>
          match ← value (engine (recoverForResource M.backend M.owner record)) with
          | .ok _ => recoverResources (journals.eraseP (·.resource = resource)) resources
          | .error (.journal error) => throw error
          | .error (.conflict detail) =>
              throw (.conflict resource (.staleJournalUnresolved detail))

/-- Captures the current state of each resource of an apply. -/
def observeAll : List ResourceId → EngineResult D I (List (ResourceId × BoundObservation D I))
  | [] => return []
  | resource :: resources => do
      let observation ← ask (Engine.observe resource)
      ask (Engine.fire .afterCapture)
      return (resource, observation) :: (← observeAll resources)

/-- The part of `apply` between taking the locks and creating the lease. -/
def applyLocked (plan : NormalizedConfig) (resources : List ResourceId) :
    ManagedResult D I PreparedLease := do
  ask (engine (Engine.fire .afterLock))
  let journals ← ask (engine Engine.journalRecords)
  recoverResources M journals resources
  ask (engine (Engine.fire .afterRecovery))
  let observations ← ask (engine (observeAll resources).run)
  ask (engine (Engine.fire .afterNoopDecision))
  ask (engine (transactWithLocks M.backend M.owner plan observations).run)

/-- The end of `apply`: creates the lease and starts observation.  A lease whose observation
cannot start is restored; a handle that cannot be restored is dropped. -/
def activateLease (prepared : PreparedLease) (locks : List ResourceId) :
    ManagedResult D I Lease := do
  let lease ← value (newOwned prepared locks)
  match ← attempt (ensureEnforceWatch M) with
  | .ok _ =>
      value Managed.rescanEnforce
      return lease
  | .error error =>
      match ← value (lease.restore M) with
      | .ok _ => throw error
      | .error (failure, lease) =>
          value (lease.drop M)
          throw (transactionError error [failure])

/-- `DnsManager::apply`. -/
def Manager.apply (config : DnsConfig) : ManagedResult D I Lease := do
  let plan ← ask (pure (validateAgainst config M.backend.capabilities))
  ask (pure (M.backend.validatePlan config.scope plan))
  ask (engine (Engine.fire .afterValidate))
  let resources ← ask (Managed.resolveResources config.scope plan)
  ask (engine (Engine.fire .afterResolve))
  let locks ← acquireAll resources
  match ← attempt (applyLocked M plan resources) with
  | .ok prepared => activateLease M prepared locks
  | .error error =>
      value (releaseAll locks)
      throw error

/-! ## Recovery -/

/-- One record of `recover_stale`. -/
def recoverStaleRecord (record : JournalRecord D I) : Managed D I RecoveryOutcome := do
  if record.owner ≠ M.owner then
    return .foreignOwner record.resource record.owner
  else
  match ← Managed.tryAcquire record.resource with
  | .ok true =>
      let result ← engine (recoverRecord M.backend record).run
      Managed.release record.resource
      match result with
      | .ok outcome => return outcome
      | .error error => return .failed record.resource record.leaseId error.text
  | .ok false => return .busy record.resource
  | .error (.conflict _ _) => return .busy record.resource
  | .error error => return .failed record.resource record.leaseId error.text

def recoverStaleRecords : List (JournalRecord D I) → Managed D I (List RecoveryOutcome)
  | [] => return []
  | record :: records => do
      let outcome ← recoverStaleRecord M record
      return outcome :: (← recoverStaleRecords records)

/-- `DnsManager::recover_stale`. -/
def Manager.recoverStale : ManagedResult D I (List RecoveryOutcome) := do
  let records ← ask (engine Engine.journalRecords)
  value (recoverStaleRecords M records)

/-- Removes records until one removal fails. -/
def abandonRecords (resource : ResourceId) :
    List (JournalRecord D I) → Managed D I (Except Error Unit)
  | [] => return .ok ()
  | record :: records => do
      match ← engine (Engine.journalRemove record.leaseId resource .abandoned) with
      | .ok _ => abandonRecords resource records
      | .error error => return .error error

/-- `DnsManager::abandon_journal`. -/
def Manager.abandonJournal (resource : ResourceId) : ManagedResult D I Unit := do
  ask (Managed.acquire resource)
  let result ←
    match ← value (engine Engine.journalRecords) with
    | .error error => pure (.error error)
    | .ok all =>
        let records := all.filter (·.resource = resource)
        if records.any (·.owner ≠ M.owner) then
          pure (.error (.conflict resource
            (.resourceOccupied "journal belongs to another application owner")))
        else value (abandonRecords resource records)
  value (Managed.release resource)
  ask (pure result)

end Osdns
