import Osdns.Model.World

/-!
# Runs of the whole system

Any number of managers run any number of sessions over one world.  A session is one public
operation in progress, or one reconciliation pass; its program performs one call at a time, and
calls of different sessions interleave freely.  Between calls, others change native states, time
passes, and a manager's process can crash, which ends its sessions and leases, forgets its memory
and releases its locks.

Each session claims a set of resources when it starts, an operation on a lease those of the lease,
and only calls on resources it claims.  In a `serial` system the claims of running sessions are
disjoint: the operations on one resource run one at a time.  Otherwise claims restrict nothing,
since a session may claim everything and a lease only calls on its own resources.

A lease is idle, and then its handle is in `leases`, or an operation on it is in progress, which
holds the handle until it finishes (the source's `state` mutex).
-/

namespace Osdns

open Interaction

/-! ## Sessions -/

/-- What a session runs. -/
inductive Request
  | apply (config : DnsConfig)
  | update (lease : LeaseId) (config : DnsConfig)
  | restore (lease : LeaseId)
  | abandon (lease : LeaseId)
  | drop (lease : LeaseId)
  | reconcile (resource : ResourceId)
  | recoverStale
  | abandonJournal (resource : ResourceId)

/-- The lease an operation works on. -/
def Request.lease : Request → Option LeaseId
  | .update lease _ => some lease
  | .restore lease => some lease
  | .abandon lease => some lease
  | .drop lease => some lease
  | _ => none

/-- What a finished session leaves to its caller. -/
inductive Outcome
  | applied (result : Except Error Lease)
  | updated (result : Except Error Unit) (lease : Lease)
  | ended (result : Except (Error × Lease) Unit)
  | dropped
  | reconciled (outcome : ReconcileOutcome)
  | recovered (result : Except Error (List RecoveryOutcome))
  | abandoned (result : Except Error Unit)

/-- The handle a finished session gives back to its caller. -/
def Outcome.handle : Outcome → Option Lease
  | .applied (.ok lease) => some lease
  | .updated _ lease => some lease
  | .ended (.error (_, lease)) => some lease
  | _ => none

abbrev FakeManager := Manager FakeSnapshotData

abbrev FakeManaged (α : Type) := Managed FakeSnapshotData FakeIdentity α

/-- A manager over the fake backend. -/
def fakeManager (owner : String) (caps : Capabilities) (policy : ConflictPolicy) : FakeManager :=
  ⟨owner, fakeBackend caps, policy⟩

/-- The program of a request on a lease handle. -/
def Request.onLease (M : FakeManager) (lease : Lease) : Request → FakeManaged Outcome
  | .update _ config => do
      return .updated (← (lease.update M config).run) lease
  | .restore _ => do
      return .ended (← lease.restore M)
  | .abandon _ => do
      return .ended (← lease.abandon M)
  | .drop _ => do
      lease.drop M
      return .dropped
  | _ => return .dropped

/-- The program of a request that needs no handle. -/
def Request.alone (M : FakeManager) : Request → FakeManaged Outcome
  | .apply config => do
      return .applied (← (M.apply config).run)
  | .reconcile resource => do
      return .reconciled (← reconcilePassGated M.backend resource)
  | .recoverStale => do
      return .recovered (← M.recoverStale.run)
  | .abandonJournal resource => do
      return .abandoned (← (M.abandonJournal resource).run)
  | _ => return .dropped

structure Session where
  manager : ManagerId
  request : Request
  /-- The handle the operation works on. -/
  handle : Option Lease
  claims : ResourceId → Prop
  program : FakeManaged Outcome

/-- The lease session `i` works for: that of its handle, or the one it may create. -/
def Session.key (session : Session) (i : SessionId) : LeaseId :=
  (session.handle.map (·.leaseId)).getD i

/-! ## Systems -/

/-- What is fixed over a run: the managers, which calls may fail, and whether operations on one
resource are serial. -/
structure Setup where
  owner : ManagerId → String
  capabilities : ManagerId → Capabilities
  policy : ManagerId → ConflictPolicy
  faults : Faults
  serial : Prop

/-- The manager `m`. -/
def Setup.manager (S : Setup) (m : ManagerId) : FakeManager :=
  fakeManager (S.owner m) (S.capabilities m) (S.policy m)

structure System where
  world : World
  sessions : SessionId → Option Session
  /-- The idle leases, with the manager they belong to. -/
  leases : LeaseId → Option (ManagerId × Lease)
  next : SessionId

namespace World

/-- The world after the process of a manager died: its memory and its locks are gone. -/
def crash (w : World) (manager : ManagerId) : World :=
  { w with
    cells := fun r =>
      let c := w.cells r
      { c with
        lock := c.lock.filter fun holder => holder.1 ≠ manager
        active := Function.update c.active manager none
        token := Function.update c.token manager none
        pending := Function.update c.pending manager none
        breaker := Function.update c.breaker manager none
        sections := c.sections.filter fun entry => entry.manager ≠ manager }
    tokens := Function.update w.tokens manager fun _ => none
    gate := Function.update w.gate manager none
    enforce := Function.update w.enforce manager {} }

/-- What happens besides the sessions: native changes, notifications and time. -/
inductive Environment : World → World → Prop
  | external (w : World) (r : ResourceId) (c : Cell) (h : Cell.External (w.cells r) c) :
      Environment w (w.setCell r c)
  | retopology (w : World) (topology : Topology) : Environment w { w with topology }
  | notify (w : World) (manager : ManagerId) (r : ResourceId) :
      Environment w (w.setCell r { w.cells r with
        pending := Function.update (w.cells r).pending manager
          (some (.touch w.clock ((w.cells r).pending manager))) })
  | tick (w : World) (duration : Duration) :
      Environment w { w with clock := w.clock + duration }

end World

namespace System

/-- Adds a session. -/
def spawn (s : System) (session : Session) : System :=
  { s with
    sessions := Function.update s.sessions s.next (some session)
    next := s.next + 1 }

/-- Whether a new session may claim the given resources. -/
def Free (S : Setup) (s : System) (claims : ResourceId → Prop) : Prop :=
  S.serial → ∀ i session, s.sessions i = some session → ∀ r, claims r → ¬ session.claims r

/-- The system after session `i` finished. -/
def finish (s : System) (i : SessionId) (manager : ManagerId) (outcome : Outcome) : System :=
  { s with
    sessions := Function.update s.sessions i none
    leases :=
      match outcome.handle with
      | some lease => Function.update s.leases lease.leaseId (some (manager, lease))
      | none => s.leases }

/-- One step of the system. -/
inductive Step (S : Setup) : System → System → Prop
  | start (s : System) (m : ManagerId) (request : Request) (claims : ResourceId → Prop)
      (alone : request.lease = none)
      (enforced : ∀ r, request = .reconcile r → S.policy m = .enforce)
      (free : s.Free S claims) :
      Step S s (s.spawn ⟨m, request, none, claims, request.alone (S.manager m)⟩)
  | startOn (s : System) (m : ManagerId) (request : Request) (lease : Lease) (id : LeaseId)
      (onLease : request.lease = some id) (idle : s.leases id = some (m, lease))
      (free : s.Free S (· ∈ lease.resources)) :
      Step S s ({ s with leases := Function.update s.leases id none }.spawn
        ⟨m, request, some lease, (· ∈ lease.resources), request.onLease (S.manager m) lease⟩)
  | call (s : System) (i : SessionId) (session : Session)
      (o : ManagerOp FakeSnapshotData FakeIdentity)
      (k : ManagerRet FakeSnapshotData FakeIdentity o → FakeManaged Outcome)
      (answer : ManagerRet FakeSnapshotData FakeIdentity o) (w : World)
      (running : s.sessions i = some session) (program : session.program = .call o k)
      (claimed : ∀ r, o.target = some r → session.claims r)
      (answered : World.handler S.faults i session.manager o s.world answer w) :
      Step S s { s with
        world := w
        sessions := Function.update s.sessions i (some { session with program := k answer }) }
  | finish (s : System) (i : SessionId) (session : Session) (outcome : Outcome)
      (running : s.sessions i = some session) (program : session.program = .done outcome) :
      Step S s (s.finish i session.manager outcome)
  | environment (s : System) (w : World) (h : World.Environment s.world w) :
      Step S s { s with world := w }
  | crash (s : System) (m : ManagerId) :
      Step S s { s with
        world := s.world.crash m
        sessions := fun i => (s.sessions i).filter fun session => session.manager ≠ m
        leases := fun l => (s.leases l).filter fun entry => entry.1 ≠ m }

/-- A system before anything happened, over any native state. -/
structure Initial (s : System) : Prop where
  sessions : ∀ i, s.sessions i = none
  leases : ∀ l, s.leases l = none
  names : s.world.names = []
  tokens : ∀ m t, s.world.tokens m t = none
  gate : ∀ m, s.world.gate m = none
  enforce : ∀ m, s.world.enforce m = {}
  cells : ∀ r, ∃ state generation incarnation ambiguous,
    s.world.cells r = { state, generation, incarnation, ambiguous }

/-- The states of runs from an initial system. -/
inductive Reachable (S : Setup) : System → Prop
  | init {s : System} (h : Initial s) : Reachable S s
  | step {s t : System} (h : Reachable S s) (hst : Step S s t) : Reachable S t

end System

end Osdns
