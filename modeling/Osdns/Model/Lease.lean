import Mathlib.Data.List.Sort
import Osdns.Model.Reconciliation

/-!
# Leases

`lease.rs`: the handle of a lease and its operations.  A `Lease` value is what the caller holds;
its live records are memory cells (`LiveRef`) shared with the reconciler.  The operations take
the handle and answer with the handle they leave behind, which is what the source keeps under
the `state` mutex for the length of each operation.
-/

namespace Osdns

open Interaction
open Interaction.Fallible (ask value attempt)

inductive LeasePhase
  | active
  | restoring
  | abandoning
  deriving DecidableEq

/-- The live part of a lease: its live records, the locks it holds and its phase. -/
structure LiveLease where
  live : List LiveRef
  locks : List ResourceId
  phase : LeasePhase
  deriving DecidableEq

/-- The handle of a lease; `state = none` means the lease already ended. -/
structure Lease where
  leaseId : LeaseId
  resources : List ResourceId
  isNoop : Bool
  state : Option LiveLease
  deriving DecidableEq

variable {D I : Type} (M : Manager D)

/-! ## Enforce observation -/

/-- `ensure_enforce_watch`. -/
def ensureEnforceWatch : ManagedResult D I Unit := do
  if M.conflictPolicy ≠ .enforce then return
  else if M.backend.capabilities.watch = false then
    throw (.unsupported M.backend.kind
      ("ConflictPolicy::Enforce requires change notifications, which this backend does not " ++
        "support"))
  else ask Managed.enforceEnsure

/-- `release_enforce_watch`. -/
def releaseEnforceWatch : Managed D I Unit := do
  if M.conflictPolicy ≠ .enforce then return
  else Managed.enforceRelease

/-! ## Creation -/

/-- Registers the live records of a new lease. -/
def registerAll : List LiveRef → Managed D I Unit
  | [] => return
  | ref :: refs => do
      registerActive ref
      registerAll refs

/-- `new_owned`: the lease over the live records of a finished apply. -/
def newOwned (prepared : PreparedLease) (locks : List ResourceId) : Managed D I Lease := do
  let live := prepared.resources.map (LiveRef.mk prepared.leaseId)
  registerAll live
  return {
    leaseId := prepared.leaseId
    resources := prepared.resources
    isNoop := prepared.wasNoop
    state := some { live, locks, phase := .active } }

/-- The error of an operation on a lease that already ended. -/
def Lease.notActive (lease : Lease) : Error :=
  match lease.resources with
  | resource :: _ => .conflict resource .leaseNotActive
  | [] => .invalidConfig "lease owns no resources"

/-! ## Update -/

/-- Whether every live record is still registered with the manager. -/
def allRegistered : List LiveRef → Managed D I Bool
  | [] => return true
  | ref :: refs => do
      match ← Managed.activeGet ref.resource with
      | some _ => allRegistered refs
      | none => return false

/-- The lifetime check of an update. -/
def checkIdentities : List LiveRef → ManagedResult D I Unit
  | [] => return
  | ref :: refs => do
      let live ← value (engine (Engine.liveGet ref))
      match ← ask (engine (Engine.resourceStatus .forward live.record.identity)) with
      | .same => checkIdentities refs
      | .gone =>
          throw (.resourceGone M.backend.kind live.record.resource
            "the leased native resource incarnation is gone; restore or abandon the lease")
      | .replaced =>
          throw (.resourceIdentity M.backend.kind live.record.resource
            "the lease target was replaced; restore or abandon the lease")
      | .ambiguous =>
          throw (.resourceIdentity M.backend.kind live.record.resource
            "the leased native resource incarnation cannot be proven; refusing update")

/-- `Vec::sort` on resource ids, which are ordered by their text. -/
def sortResources (resources : List ResourceId) : List ResourceId :=
  resources.insertionSort (fun a b => a.text ≤ b.text)

/-- Clones the tokens of the resources. -/
def getTokens : List ResourceId → Managed D I (List Token)
  | [] => return []
  | resource :: resources => do
      let token ← Managed.tokenGet resource
      return token :: (← getTokens resources)

def lockTokens : List Token → Managed D I Unit
  | [] => return
  | token :: tokens => do
      Managed.tokenLock token
      lockTokens tokens

def unlockTokens : List Token → Managed D I Unit
  | [] => return
  | token :: tokens => do
      Managed.tokenUnlock token
      unlockTokens tokens

def enterSections : List LiveRef → Managed D I Unit
  | [] => return
  | ref :: refs => do
      Managed.enterSection ref
      enterSections refs

def leaveSections : List LiveRef → Managed D I Unit
  | [] => return
  | ref :: refs => do
      Managed.leaveSection ref
      leaveSections refs

/-- The end of `Lease::update`: the transaction under every per-resource token. -/
def updateLocked (live : List LiveRef) (owned : List ResourceId) (plan : NormalizedConfig) :
    ManagedResult D I Unit := do
  let tokens ← value (getTokens owned)
  value (lockTokens tokens)
  value (enterSections live)
  let result ← value (engine (transactUpdate M.backend live plan).run)
  value (leaveSections live)
  value (unlockTokens tokens)
  value Managed.rescanEnforce
  ask (pure result)

/-- `Lease::update`; the handle is left as it was. -/
def Lease.update (lease : Lease) (config : DnsConfig) : ManagedResult D I Unit := do
  let plan ← ask (pure (validateAgainst config M.backend.capabilities))
  ask (pure (M.backend.validatePlan config.scope plan))
  match lease.state with
  | none => throw lease.notActive
  | some state =>
  let registered ← value (allRegistered state.live)
  if state.phase ≠ .active ∨ registered = false then throw .leaseEnding
  else
  checkIdentities M state.live
  let wanted ← ask (Managed.resolveResources config.scope plan)
  let wantedSorted := sortResources wanted
  let ownedSorted := sortResources (state.live.map (·.resource))
  if wantedSorted ≠ ownedSorted then throw (.updateRequiresRebind ownedSorted wantedSorted)
  else updateLocked M state.live ownedSorted plan

/-! ## Restore, abandon and drop -/

def releaseAll : List ResourceId → Managed D I Unit
  | [] => return
  | resource :: resources => do
      Managed.release resource
      releaseAll resources

/-- What a teardown of several live records left: the records kept, the locks still held and
the first error. -/
structure Teardown where
  live : List LiveRef
  locks : List ResourceId
  error : Option Error

/-- One teardown step on one live record, with the resource's token held. -/
def teardownRecord (step : LiveRef → Managed D I (Except Error Unit)) (ref : LiveRef)
    (locks : List ResourceId) : Managed D I (Except Error Unit) :=
  withLiveRecord ref do
    unregisterActive ref.resource
    match ← step ref with
    | .ok _ =>
        -- Dropping the resource's lock from `_locks` releases it.
        releaseAll (locks.filter (· = ref.resource))
        return .ok ()
    | .error error => return .error error

/-- One teardown step on each live record, as `live.retain` runs it: a record whose step
succeeds gives its lock back and leaves the lease. -/
def teardown (step : LiveRef → Managed D I (Except Error Unit)) :
    List LiveRef → List ResourceId → Managed D I Teardown
  | [], locks => return ⟨[], locks, none⟩
  | ref :: refs, locks => do
      match ← teardownRecord step ref locks with
      | .ok _ => teardown step refs (locks.filter (· ≠ ref.resource))
      | .error error =>
          let rest ← teardown step refs locks
          return { rest with live := ref :: rest.live, error := some error }

/-- `Lease::restore_state`. -/
def Lease.restoreState (lease : Lease) : Managed D I (Except Error Unit × Lease) := do
  match lease.state with
  | none => return (.error lease.notActive, lease)
  | some state =>
  let result ← teardown (fun ref => engine (restoreLiveState M.backend ref).run) state.live
    state.locks
  if state.phase = .active then releaseEnforceWatch M
  match result.error with
  | none =>
      releaseAll result.locks
      return (.ok (), { lease with state := none })
  | some error =>
      return (.error error,
        { lease with state := some ⟨result.live, result.locks, .restoring⟩ })

/-- The teardown step of an abandoned record. -/
def abandonRecord (ref : LiveRef) : Managed D I (Except Error Unit) := do
  let live ← engine (Engine.liveGet ref)
  engine (Engine.journalRemove live.record.leaseId live.record.resource .abandoned)

/-- `Lease::abandon_state`. -/
def Lease.abandonState (lease : Lease) : Managed D I (Except Error Unit × Lease) := do
  match lease.state with
  | none => return (.ok (), lease)
  | some state =>
  let result ← teardown abandonRecord state.live state.locks
  if state.phase = .active then releaseEnforceWatch M
  match result.error with
  | none =>
      releaseAll result.locks
      return (.ok (), { lease with state := none })
  | some error =>
      return (.error error,
        { lease with state := some ⟨result.live, result.locks, .abandoning⟩ })

/-- The loop of `Drop for Lease`. -/
def dropRecords (phase : LeasePhase) : List LiveRef → Managed D I Unit
  | [] => return
  | ref :: refs => do
      withLiveRecord ref (do
        if phase = .abandoning then
          let _ ← abandonRecord ref
        else
          let _ ← engine (restoreLiveState M.backend ref).run
        unregisterActive ref.resource)
      dropRecords phase refs

/-- `Drop for Lease`: a best-effort end of the lease. -/
def Lease.drop (lease : Lease) : Managed D I Unit := do
  match lease.state with
  | none => return
  | some state =>
      dropRecords M state.phase state.live
      releaseAll state.locks
      if state.phase = .active then releaseEnforceWatch M

/-- `Lease::restore`: on success the handle is consumed. -/
def Lease.restore (lease : Lease) : Managed D I (Except (Error × Lease) Unit) := do
  match ← lease.restoreState M with
  | (.ok _, _) => return .ok ()
  | (.error error, lease) => return .error (error, lease)

/-- `Lease::abandon`. -/
def Lease.abandon (lease : Lease) : Managed D I (Except (Error × Lease) Unit) := do
  match ← lease.abandonState M with
  | (.ok _, _) => return .ok ()
  | (.error error, lease) => return .error (error, lease)

end Osdns
