import Osdns.Framework.Program
import Osdns.Model.Backend

/-!
# The calls of the transaction engine

The engine is a program over the calls below: checkpoints of the fault hook, the part of the
backend that reads or changes native state, the journal, and the memory cells that hold live
records.  `Engine` programs answer with a value, `EngineResult` programs are those of the
source's functions that return a `Result`.

A live record is shared between its lease and the reconciler behind an `Arc<Mutex<_>>`; a
`LiveRef` names it, and a `&mut LiveRecord` argument of the source is a `LiveRef` here.

Three arguments carry no information to the callee.  `Site` says whether a status check or a
read-back belongs to a compensation, `Cause` names the lease a mutation is made for and whether
the reconciler makes it, and `Removal` says why a record is removed.  They label the calls so
that properties can speak about them.
-/

namespace Osdns

open Interaction

/-- Whether a backend call belongs to a compensation. -/
inductive Site
  | forward
  | compensation
  deriving DecidableEq

/-- The lease a mutation is made for, and whether it is an overlay of the reconciler. -/
structure Cause where
  lease : LeaseId
  reconciling : Bool
  deriving DecidableEq

/-- Why a journal record is removed: its native effect is undone or never happened, the caller
gave it up, or the native resource it names is gone or replaced. -/
inductive Removal
  | settled
  | abandoned
  | lifetime
  deriving DecidableEq

/-- Names the live record of a lease on a resource. -/
structure LiveRef where
  lease : LeaseId
  resource : ResourceId
  deriving DecidableEq

inductive EngineOp (D I : Type) : Type
  | fire (point : TxPoint)
  | resourceStatus (site : Site) (identity : ResourceIdentity I)
  | readback (site : Site) (resource : ResourceId)
  | capture (resource : ResourceId)
  | observe (resource : ResourceId)
  | applyGuarded (cause : Cause) (resource : ResourceId) (expected : PlatformSnapshot D)
      (plan : NormalizedConfig)
  | restoreGuarded (cause : Cause) (resource : ResourceId) (expected target : PlatformSnapshot D)
  | apply (cause : Cause) (resource : ResourceId) (plan : NormalizedConfig)
  | restore (cause : Cause) (resource : ResourceId) (snapshot : PlatformSnapshot D)
  | journalWrite (record : JournalRecord D I)
  | journalRemove (leaseId : LeaseId) (resource : ResourceId) (removal : Removal)
  | journalRecords
  | newLeaseId
  | liveGet (ref : LiveRef)
  | liveSet (ref : LiveRef) (live : LiveRecord D I)

@[reducible] def EngineRet (D I : Type) : EngineOp D I → Type
  | .fire _ => Except Error Unit
  | .resourceStatus _ _ => Except Error ResourceStatus
  | .readback _ _ => Except Error (PlatformSnapshot D)
  | .capture _ => Except Error (PlatformSnapshot D)
  | .observe _ => Except Error (BoundObservation D I)
  | .applyGuarded _ _ _ _ => MutationAttempt D
  | .restoreGuarded _ _ _ _ => MutationAttempt D
  | .apply _ _ _ => Except Error Unit
  | .restore _ _ _ => Except Error Unit
  | .journalWrite _ => Except Error Unit
  | .journalRemove _ _ _ => Except Error Unit
  | .journalRecords => Except Error (List (JournalRecord D I))
  | .newLeaseId => LeaseId
  | .liveGet _ => LiveRecord D I
  | .liveSet _ _ => Unit

/-- Engine programs. -/
abbrev Engine (D I α : Type) : Type := Program (EngineRet D I) α

/-- Engine programs that may stop with an error. -/
abbrev EngineResult (D I α : Type) : Type := Fallible Error (EngineRet D I) α

variable {D I : Type}

namespace Engine

def fire (point : TxPoint) : Engine D I (Except Error Unit) :=
  .call (.fire point) .done

def resourceStatus (site : Site) (identity : ResourceIdentity I) :
    Engine D I (Except Error ResourceStatus) :=
  .call (.resourceStatus site identity) .done

def readback (site : Site) (resource : ResourceId) :
    Engine D I (Except Error (PlatformSnapshot D)) :=
  .call (.readback site resource) .done

def capture (resource : ResourceId) : Engine D I (Except Error (PlatformSnapshot D)) :=
  .call (.capture resource) .done

def observe (resource : ResourceId) : Engine D I (Except Error (BoundObservation D I)) :=
  .call (.observe resource) .done

def applyGuarded (cause : Cause) (resource : ResourceId) (expected : PlatformSnapshot D)
    (plan : NormalizedConfig) : Engine D I (MutationAttempt D) :=
  .call (.applyGuarded cause resource expected plan) .done

def restoreGuarded (cause : Cause) (resource : ResourceId)
    (expected target : PlatformSnapshot D) : Engine D I (MutationAttempt D) :=
  .call (.restoreGuarded cause resource expected target) .done

def apply (cause : Cause) (resource : ResourceId) (plan : NormalizedConfig) :
    Engine D I (Except Error Unit) :=
  .call (.apply cause resource plan) .done

def restore (cause : Cause) (resource : ResourceId) (snapshot : PlatformSnapshot D) :
    Engine D I (Except Error Unit) :=
  .call (.restore cause resource snapshot) .done

def journalWrite (record : JournalRecord D I) : Engine D I (Except Error Unit) :=
  .call (.journalWrite record) .done

def journalRemove (leaseId : LeaseId) (resource : ResourceId) (removal : Removal) :
    Engine D I (Except Error Unit) :=
  .call (.journalRemove leaseId resource removal) .done

def journalRecords : Engine D I (Except Error (List (JournalRecord D I))) :=
  .call .journalRecords .done

def newLeaseId : Engine D I LeaseId := .call .newLeaseId .done

def liveGet (ref : LiveRef) : Engine D I (LiveRecord D I) := .call (.liveGet ref) .done

def liveSet (ref : LiveRef) (live : LiveRecord D I) : Engine D I Unit :=
  .call (.liveSet ref live) .done

end Engine

end Osdns
