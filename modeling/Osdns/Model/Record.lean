import Osdns.Model.Config

/-!
# Snapshots, journal records and live records

The data the transaction engine moves around: native snapshots and identities
(`platform/mod.rs`), journal records (`journal.rs`), the in-memory live record of a lease
(`lease.rs`) and what a backend mutation reports.

The engine never looks inside a snapshot or an identity, only backends do, so both payloads are
parameters: `D` is the snapshot data and `I` the identity data of the backends in use.
-/

namespace Osdns

/-- The id of a lease (a version-4 UUID in the source). -/
abbrev LeaseId := Nat

/-- A manager: one process with its own memory. -/
abbrev ManagerId := Nat

/-! ## Snapshots and identities -/

/-- A capture of a resource's native DNS state, opaque to the engine. -/
structure PlatformSnapshot (D : Type) where
  backend : BackendKind
  resource : ResourceId
  data : D
  deriving DecidableEq

/-- Evidence naming the native incarnation a record was created against. -/
structure ResourceIdentity (I : Type) where
  backend : BackendKind
  resource : ResourceId
  data : I
  deriving DecidableEq

inductive ResourceStatus
  | same
  | gone
  | replaced
  | ambiguous
  deriving DecidableEq

/-- The `Debug` form of a status. -/
def ResourceStatus.debug : ResourceStatus → String
  | .same => "Same"
  | .gone => "Gone"
  | .replaced => "Replaced"
  | .ambiguous => "Ambiguous"

/-- One observation binding an identity to the snapshot of the same native object. -/
structure BoundObservation (D I : Type) where
  identity : ResourceIdentity I
  snapshot : PlatformSnapshot D

/-! ## Mutations -/

/-- What a backend mutation did. -/
inductive MutationAttempt (D : Type)
  | performed (produced : Option (PlatformSnapshot D))
  | rejected (error : Error)
  | indeterminate (error : Error) (produced : Option (PlatformSnapshot D))

/-- `MutationAttempt::from_apply_result`. -/
def MutationAttempt.fromApplyResult {D : Type} : Except Error Unit → MutationAttempt D
  | .ok _ => .performed none
  | .error error =>
      if error.isExternalModification then .rejected error else .indeterminate error none

/-- Backend-issued identity of a mutation. -/
structure OwnershipProof (D : Type) where
  snapshot : PlatformSnapshot D
  deriving DecidableEq

/-- A mutation that matched the desired configuration on read-back. -/
structure VerifiedMutation (D : Type) where
  proof : Option (OwnershipProof D)
  observed : PlatformSnapshot D
  deriving DecidableEq

/-- `VerifiedMutation::persist`: the issued proof, or else the observation. -/
def VerifiedMutation.persist {D : Type} (mutation : VerifiedMutation D) : PlatformSnapshot D :=
  match mutation.proof with
  | some proof => proof.snapshot
  | none => mutation.observed

/-- A rollback still to be carried out: the evidence that authorises it and its target. -/
structure PendingRollback (D : Type) where
  evidence : Option (PlatformSnapshot D)
  target : PlatformSnapshot D
  deriving DecidableEq

/-- What a failed mutation left behind. -/
inductive MutationResidue (D : Type)
  | unchanged
  | restored (identity : Option (PlatformSnapshot D))
  | pending (pending : PendingRollback D)

structure MutationFailure (D : Type) where
  error : Error
  residue : MutationResidue D

/-! ## Journal records -/

inductive Phase
  | prepared
  | applied
  deriving DecidableEq

/-- One durable transaction record. -/
structure JournalRecord (D I : Type) where
  owner : String
  leaseId : LeaseId
  resource : ResourceId
  backend : BackendKind
  identity : ResourceIdentity I
  phase : Phase
  before : PlatformSnapshot D
  desired : NormalizedConfig
  applied : Option (PlatformSnapshot D)
  deriving DecidableEq

/-! ## Live records -/

/-- Runtime progress of a live record, apart from the last journal intent. -/
inductive LiveState (D I : Type)
  | committed
  | unmutated
  | prepared
  | verified (mutation : VerifiedMutation D)
  | compensating (pending : PendingRollback D) (resume : JournalRecord D I)
  | repair (next : LiveState D I)
  deriving DecidableEq

/-- The publication payload of a lease's resource and its runtime state. -/
structure LiveRecord (D I : Type) where
  record : JournalRecord D I
  state : LiveState D I
  deriving DecidableEq

/-- `matches!(state, LiveState::Prepared)`. -/
def LiveState.isPrepared {D I : Type} : LiveState D I → Bool
  | .prepared => true
  | _ => false

/-- `LiveRecord::applied`: only a committed record vouches for its `applied` snapshot. -/
def LiveRecord.applied {D I : Type} (live : LiveRecord D I) : Option (PlatformSnapshot D) :=
  match live.state with
  | .committed => live.record.applied
  | _ => none

/-! ## Transaction checkpoints -/

/-- Checkpoints where a fault hook may fail or stop a transaction. -/
inductive TxPoint
  | afterValidate
  | afterResolve
  | afterLock
  | afterRecovery
  | afterCapture
  | afterNoopDecision
  | afterPrepared
  | afterApply
  | afterReadback
  | afterVerify
  | afterApplied
  | afterUpdateResolve
  | afterUpdateCapture
  | afterUpdateNoopCheck
  | afterUpdatePrepared
  | afterUpdateApply
  | afterUpdateReadback
  | afterUpdateVerify
  | afterUpdateApplied
  | afterRestoreReadback
  | afterRestoreRestore
  | afterRestoreJournal
  | afterRecoveryReadback
  | afterRecoveryRestore
  | afterRecoveryJournal
  deriving DecidableEq

/-- The checkpoints one mutation fires.  The fourth field of the source, `suppress_events`,
steers the event filter of public watchers, which is outside this model. -/
structure MutatePoints where
  apply : TxPoint
  readback : TxPoint
  verify : TxPoint

def initialPoints : MutatePoints where
  apply := .afterApply
  readback := .afterReadback
  verify := .afterVerify

def reconcilePoints : MutatePoints := initialPoints

def updatePoints : MutatePoints where
  apply := .afterUpdateApply
  readback := .afterUpdateReadback
  verify := .afterUpdateVerify

/-! ## Recovery -/

/-- The result of inspecting one journal record during stale recovery. -/
inductive RecoveryOutcome
  | foreignOwner (resource : ResourceId) (owner : String)
  | restored (resource : ResourceId) (leaseId : LeaseId)
  | journalCleared (resource : ResourceId) (leaseId : LeaseId)
  | gone (resource : ResourceId) (leaseId : LeaseId)
  | replaced (resource : ResourceId) (leaseId : LeaseId)
  | identityMismatch (resource : ResourceId) (leaseId : LeaseId)
  | failed (resource : ResourceId) (leaseId : LeaseId) (detail : String)
  | externalConflict (resource : ResourceId) (leaseId : LeaseId)
  | busy (resource : ResourceId)

/-- Why a journal record blocks an apply. -/
inductive RecoverBlock
  | journal (error : Error)
  | conflict (detail : String)

/-- `transaction_error`: a cleanup that failed too wraps the primary error. -/
def transactionError (primary : Error) (cleanup : List Error) : Error :=
  if cleanup.isEmpty then primary else .transactionFailed primary cleanup

end Osdns
