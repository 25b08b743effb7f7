import Osdns.Model.Operations
import Osdns.Model.Schedule

/-!
# The calls of a manager

Managers and leases are programs over the engine's calls together with the calls below: the
inter-process locks of `ownership.rs`, the registry of active leases and their tokens, the
reconciler's maps, and the Enforce observation.

`enterSection` and `leaveSection` change nothing the program can see.  They mark where a holder
of a resource's token starts and stops working on a live record, which is what the mutual
exclusion of those sections speaks about.
-/

namespace Osdns

open Interaction

/-- A per-resource lease token (`Arc<Mutex<()>>`), named by the order of creation. -/
abbrev Token := Nat

inductive ManagerOp (D I : Type) : Type
  | engine (o : EngineOp D I)
  | resolveResources (scope : DnsScope) (plan : NormalizedConfig)
  | acquire (resource : ResourceId)
  | tryAcquire (resource : ResourceId)
  | release (resource : ResourceId)
  | activeInsert (ref : LiveRef)
  | activeGet (resource : ResourceId)
  | activeRemove (resource : ResourceId)
  | tokenGet (resource : ResourceId)
  | tokenRemove (resource : ResourceId)
  | tokenLock (token : Token)
  | tokenUnlock (token : Token)
  | enterSection (ref : LiveRef)
  | leaveSection (ref : LiveRef)
  | gateLock
  | gateUnlock
  | defer (resource : ResourceId) (delay : Duration) (failed : Bool)
  | reconcilerRemove (resource : ResourceId)
  | generationOf (resource : ResourceId)
  | completeUnlessTouched (resource : ResourceId) (generation : Nat)
  | breakerGate (resource : ResourceId)
  | sleep (duration : Duration)
  | enforceEnsure
  | enforceRelease
  | rescanEnforce

@[reducible] def ManagerRet (D I : Type) : ManagerOp D I → Type
  | .engine o => EngineRet D I o
  | .resolveResources _ _ => Except Error (List ResourceId)
  | .acquire _ => Except Error Unit
  | .tryAcquire _ => Except Error Bool
  | .release _ => Unit
  | .activeInsert _ => Unit
  | .activeGet _ => Option LeaseId
  | .activeRemove _ => Unit
  | .tokenGet _ => Token
  | .tokenRemove _ => Unit
  | .tokenLock _ => Unit
  | .tokenUnlock _ => Unit
  | .enterSection _ => Unit
  | .leaveSection _ => Unit
  | .gateLock => Unit
  | .gateUnlock => Unit
  | .defer _ _ _ => Unit
  | .reconcilerRemove _ => Unit
  | .generationOf _ => Nat
  | .completeUnlessTouched _ _ => Unit
  | .breakerGate _ => Option Duration
  | .sleep _ => Unit
  | .enforceEnsure => Except Error Unit
  | .enforceRelease => Unit
  | .rescanEnforce => Unit

/-- Manager programs. -/
abbrev Managed (D I α : Type) : Type := Program (ManagerRet D I) α

/-- Manager programs that may stop with an error. -/
abbrev ManagedResult (D I α : Type) : Type := Fallible Error (ManagerRet D I) α

/-- How a manager reacts to external changes of what it holds a lease over. -/
inductive ConflictPolicy
  | cooperative
  | enforce
  deriving DecidableEq

/-- The immutable part of `Inner`. -/
structure Manager (D : Type) where
  owner : String
  backend : Backend D
  conflictPolicy : ConflictPolicy

variable {D I α : Type}

/-- Runs an engine program inside a manager. -/
def engine (p : Engine D I α) : Managed D I α :=
  p.lift ManagerOp.engine (fun _ r => r)

namespace Managed

def resolveResources (scope : DnsScope) (plan : NormalizedConfig) :
    Managed D I (Except Error (List ResourceId)) :=
  .call (.resolveResources scope plan) .done

def acquire (resource : ResourceId) : Managed D I (Except Error Unit) :=
  .call (.acquire resource) .done

def tryAcquire (resource : ResourceId) : Managed D I (Except Error Bool) :=
  .call (.tryAcquire resource) .done

def release (resource : ResourceId) : Managed D I Unit := .call (.release resource) .done

def activeInsert (ref : LiveRef) : Managed D I Unit := .call (.activeInsert ref) .done

def activeGet (resource : ResourceId) : Managed D I (Option LeaseId) :=
  .call (.activeGet resource) .done

def activeRemove (resource : ResourceId) : Managed D I Unit := .call (.activeRemove resource) .done

def tokenGet (resource : ResourceId) : Managed D I Token := .call (.tokenGet resource) .done

def tokenRemove (resource : ResourceId) : Managed D I Unit := .call (.tokenRemove resource) .done

def tokenLock (token : Token) : Managed D I Unit := .call (.tokenLock token) .done

def tokenUnlock (token : Token) : Managed D I Unit := .call (.tokenUnlock token) .done

def enterSection (ref : LiveRef) : Managed D I Unit := .call (.enterSection ref) .done

def leaveSection (ref : LiveRef) : Managed D I Unit := .call (.leaveSection ref) .done

def gateLock : Managed D I Unit := .call .gateLock .done

def gateUnlock : Managed D I Unit := .call .gateUnlock .done

def defer (resource : ResourceId) (delay : Duration) (failed : Bool) : Managed D I Unit :=
  .call (.defer resource delay failed) .done

def reconcilerRemove (resource : ResourceId) : Managed D I Unit :=
  .call (.reconcilerRemove resource) .done

def generationOf (resource : ResourceId) : Managed D I Nat := .call (.generationOf resource) .done

def completeUnlessTouched (resource : ResourceId) (generation : Nat) : Managed D I Unit :=
  .call (.completeUnlessTouched resource generation) .done

def breakerGate (resource : ResourceId) : Managed D I (Option Duration) :=
  .call (.breakerGate resource) .done

def sleep (duration : Duration) : Managed D I Unit := .call (.sleep duration) .done

def enforceEnsure : Managed D I (Except Error Unit) := .call .enforceEnsure .done

def enforceRelease : Managed D I Unit := .call .enforceRelease .done

def rescanEnforce : Managed D I Unit := .call .rescanEnforce .done

end Managed

end Osdns
