import Osdns.Model.ManagerCalls

/-!
# Enforce reconciliation

`reconciliation.rs`: the registry of active leases with their per-resource tokens, and one
reconciliation pass, which rebases or reapplies an active lease's overlay when the native state
is no longer the one it applied.

The worker thread runs `reconcileResource` under the reconcile gate for each due resource; a
pass under the gate is `reconcilePassGated`.
-/

namespace Osdns

open Interaction
open Interaction.Fallible (ask value attempt)

variable {D I : Type}

/-! ## The registry -/

/-- `register_active`. -/
def registerActive (ref : LiveRef) : Managed D I Unit := Managed.activeInsert ref

/-- `unregister_active`. -/
def unregisterActive (resource : ResourceId) : Managed D I Unit := do
  Managed.activeRemove resource
  Managed.tokenRemove resource
  Managed.reconcilerRemove resource

/-- `with_live_record`: runs `f` on a live record with the resource's token held. -/
def withLiveRecord {α : Type} (ref : LiveRef) (f : Managed D I α) : Managed D I α := do
  let token ← Managed.tokenGet ref.resource
  Managed.tokenLock token
  Managed.enterSection ref
  let result ← f
  Managed.leaveSection ref
  Managed.tokenUnlock token
  return result

/-! ## One pass -/

/-- What a single reconciliation pass decided. -/
inductive ReconcileOutcome
  | noActiveLease
  | identityAmbiguous
  | stillOurs
  | rebased
  | deferred
  | failed
  deriving DecidableEq

variable (B : Backend D)

/-- The state `apply_overlay` leaves a live record in when its mutation failed. -/
def overlayResidue (resume : JournalRecord D I) : MutationResidue D → LiveState D I
  | .unchanged => .unmutated
  | .restored _ => .unmutated
  | .pending pending => .compensating pending resume

/-- `apply_overlay`: adopts `before` as the base and applies the overlay over `expected`. -/
def applyOverlay (ref : LiveRef) (expected before : PlatformSnapshot D) :
    Engine D I ReconcileOutcome := do
  let live ← Engine.liveGet ref
  let candidate :=
    { live.record with before := before, phase := .prepared, applied := none }
  match ← (prepareLive ref candidate).run with
  | .error _ => return .failed
  | .ok _ =>
  match ← Engine.fire .afterPrepared with
  | .error _ => return .deferred
  | .ok _ =>
  -- Until the backend reports its outcome, no other path may take the intent as unmutated.
  let live ← Engine.liveGet ref
  Engine.liveSet ref { live with state := .prepared }
  match ← mutateAndVerify B ⟨ref.lease, true⟩ candidate.identity expected candidate.desired
    reconcilePoints with
  | .ok mutation =>
      match ← (commitVerified B ref mutation).run with
      | .error _ => return .failed
      | .ok _ =>
          let _ ← Engine.fire .afterApplied
          return .rebased
  | .error failure =>
      let live ← Engine.liveGet ref
      Engine.liveSet ref { live with state := overlayResidue candidate failure.residue }
      return .failed

/-- The readback of a pass: a resource that is gone ends the lease's claim on it. -/
def passReadback (ref : LiveRef) :
    Managed D I (Except ReconcileOutcome (PlatformSnapshot D)) := do
  match ← engine (Engine.readback .forward ref.resource) with
  | .ok snapshot => return .ok snapshot
  | .error (.resourceGone _ _ _) =>
      let live ← engine (Engine.liveGet ref)
      match ← engine (Engine.journalRemove live.record.leaseId ref.resource .lifetime) with
      | .ok _ =>
          unregisterActive ref.resource
          return .error .noActiveLease
      | .error _ => return .error .failed
  | .error _ => return .error .failed

/-- The decision of `reconcile_pass` over a stable state `second`. -/
def reconcileStable (ref : LiveRef) (second : PlatformSnapshot D) :
    Managed D I ReconcileOutcome := do
  let live ← engine (Engine.liveGet ref)
  if live.state.isPrepared ∧ B.equivalent second live.record.before = false then
    return .deferred
  else if live.applied.any (B.ownsCurrent · second) then
    if B.matchesDesired second live.record.desired then return .stillOurs
    else engine (applyOverlay B ref second live.record.before)
  else if B.matchesDesired second live.record.desired then
    -- The desired state is in effect but not by our own mutation.
    Managed.defer ref.resource identityRetry false
    return .deferred
  else if B.equivalent second live.record.before then
    engine (applyOverlay B ref second live.record.before)
  else
    match ← Managed.breakerGate ref.resource with
    | some cooldown =>
        Managed.defer ref.resource cooldown false
        return .deferred
    | none => engine (applyOverlay B ref second second)

/-- `reconcile_pass`. -/
def reconcilePass (ref : LiveRef) :
    Managed D I ReconcileOutcome := do
  let resolved ← engine (resolveLive B ref none).run
  let live ← engine (Engine.liveGet ref)
  match resolved, live.state.isPrepared with
  | .error error, false => return if error.isExternalModification then .deferred else .failed
  | _, _ =>
  match ← passReadback ref with
  | .error outcome => return outcome
  | .ok first =>
  Managed.sleep stableWindow
  match ← passReadback ref with
  | .error outcome => return outcome
  | .ok second =>
  if B.equivalent first second = false then return .deferred
  else reconcileStable B ref second

/-- The part of `reconcile_resource` that works on the entry it found under the token. -/
def reconcileEntry (ref : LiveRef) :
    Managed D I ReconcileOutcome := do
  let resource := ref.resource
  let generation ← Managed.generationOf resource
  let live ← engine (Engine.liveGet ref)
  match ← engine (Engine.resourceStatus .forward live.record.identity) with
  | .error _ =>
      Managed.defer resource errorRetry true
      return .failed
  | .ok .ambiguous =>
      Managed.defer resource identityRetry false
      return .identityAmbiguous
  | .ok .same =>
      let outcome ← reconcilePass B ref
      match outcome with
      | .noActiveLease => Managed.completeUnlessTouched resource generation
      | .stillOurs => Managed.completeUnlessTouched resource generation
      | .rebased => Managed.completeUnlessTouched resource generation
      | .deferred => Managed.defer resource unstableRetry false
      | .identityAmbiguous => pure ()
      | .failed => Managed.defer resource errorRetry true
      return outcome
  | .ok _ =>
      match ← engine (Engine.journalRemove live.record.leaseId resource .lifetime) with
      | .ok _ =>
          unregisterActive resource
          Managed.reconcilerRemove resource
          return .noActiveLease
      | .error _ =>
          Managed.defer resource errorRetry true
          return .failed

/-- `reconcile_resource`. -/
def reconcileResource (resource : ResourceId) :
    Managed D I ReconcileOutcome := do
  match ← Managed.activeGet resource with
  | none =>
      Managed.reconcilerRemove resource
      return .noActiveLease
  | some _ =>
  let token ← Managed.tokenGet resource
  Managed.tokenLock token
  -- The lease may have ended while this pass waited for the token.
  match ← Managed.activeGet resource with
  | none =>
      Managed.reconcilerRemove resource
      Managed.tokenUnlock token
      return .noActiveLease
  | some lease =>
      Managed.enterSection ⟨lease, resource⟩
      let outcome ← reconcileEntry B ⟨lease, resource⟩
      Managed.leaveSection ⟨lease, resource⟩
      Managed.tokenUnlock token
      return outcome

/-- A pass as the worker runs it, under the reconcile gate. -/
def reconcilePassGated (resource : ResourceId) :
    Managed D I ReconcileOutcome := do
  Managed.gateLock
  let outcome ← reconcileResource B resource
  Managed.gateUnlock
  return outcome

end Osdns
