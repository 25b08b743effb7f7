import Mathlib.Data.List.AList
import Mathlib.Logic.Function.Basic
import Osdns.Framework.Logic
import Osdns.Model.Manager

/-!
# The world around the managers

What the calls of `Model/ManagerCalls.lean` do over the in-memory backend of `platform/fake.rs`,
the journal directory, the inter-process locks and the memory of the managers.  Everything that
belongs to one resource is a `Cell`; a `World` is one cell per resource and the few things that
are not per resource.

A call is executed under a `Fate`: it proceeds, or it fails before its effect, or it fails after
its effect.  `World.exec` is a function of the call and its fate, so that executions can be
computed; `World.handler` leaves the fate open for the calls a fault predicate allows to fail.
A call that cannot be answered yet (a token held by another session) has no result.

## What is recorded besides

A cell also carries a record of what happened, which no program can read: who wrote the native
state last (`writer`) and over which content its last writer started (`base`), which removals
were attempted (`removals`), which record was written successfully since any other attempt on
it (`confirmed`), the captures, mutations and external writes so far (`log`, newest first), and
which sessions work on which live records (`sections`).

A mutation for a lease that already is the last writer keeps `base`; any other mutation makes
the content it replaces the base.
-/

namespace Osdns

open Interaction

abbrev SessionId := Nat

/-! ## Cells -/

/-- Who wrote a native state. -/
inductive Writer
  | external
  | engine (lease : LeaseId)
  deriving DecidableEq

/-- What happened to a native state. -/
inductive Event
  | captured (lease : LeaseId) (snapshot : FakeSnapshotData)
  | mutated (cause : Cause) (old new : FakeSnapshotData) (time : Instant)
  | external (new : Option FakeSnapshotData)
  deriving DecidableEq

/-- A session of a manager working on the live record of a lease with the token held. -/
structure Section where
  manager : ManagerId
  session : SessionId
  lease : LeaseId
  deriving DecidableEq

/-- Everything about one resource. -/
structure Cell where
  /-- The native state: absent, or present with the state of `FakeInner::states`. -/
  state : Option FakeState := none
  generation : Nat := 0
  incarnation : Nat := 0
  ambiguous : Bool := false
  /-- The journal records of this resource, one file per lease. -/
  journal : AList (fun _ : LeaseId => FakeRecord) := ∅
  /-- The inter-process lock: the manager and the session that acquired it. -/
  lock : Option (ManagerId × SessionId) := none
  /-- The live records of this resource. -/
  live : LeaseId → Option FakeLive := fun _ => none
  active : ManagerId → Option LeaseId := fun _ => none
  token : ManagerId → Option Token := fun _ => none
  pending : ManagerId → Option Pending := fun _ => none
  breaker : ManagerId → Option BreakerState := fun _ => none
  writer : Writer := .external
  base : FakeState := .empty
  removals : List (LeaseId × Removal) := []
  confirmed : LeaseId → Option FakeRecord := fun _ => none
  log : List Event := []
  sections : List Section := []

/-- How a call goes. -/
inductive Fate
  | proceed
  | fail (message : String)
  | failAfter (message : String)
  deriving DecidableEq

/-- Who performs a call, and when. -/
structure Context where
  session : SessionId
  manager : ManagerId
  now : Instant
  /-- The token a new entry of the token map would get. -/
  nextToken : Token

namespace Cell

variable (r : ResourceId) (c : Cell)

/-! ### The native state -/

/-- `snapshot_of`, when the resource is present. -/
def snapshot : Option FakeSnapshot :=
  c.state.map fun state => ⟨.fake, r, ⟨state, c.generation⟩⟩

/-- The injected backend failure of `check_failure`. -/
def injected (message : String) : Error :=
  .platform .fake s!"injected backend failure: {message}"

/-- The error of reading an absent resource. -/
def notPresent : Error :=
  .backendUnavailable s!"resource {r.asStr} is not present on this system"

/-- `resource_status`. -/
def resourceStatus (identity : FakeResourceIdentity) : Except Error ResourceStatus :=
  if identity.backend ≠ .fake then .error (.journalCorrupt "fake identity has the wrong backend")
  else if c.ambiguous then .ok .ambiguous
  else if c.state.isNone then .ok .gone
  else if identity.data.incarnation = c.incarnation then .ok .same
  else .ok .replaced

/-- `readback` and `capture`. -/
def read : Except Error FakeSnapshot :=
  match c.snapshot r with
  | some snapshot => .ok snapshot
  | none => .error (notPresent r)

/-- The native effect of a mutation that replaces `old` by `state`. -/
def mutate (cause : Cause) (old state : FakeState) (now : Instant) : Cell :=
  { c with
    state := some state
    generation := c.generation + 1
    writer := .engine cause.lease
    base := if c.writer = .engine cause.lease then c.base else old
    log := .mutated cause ⟨old, c.generation⟩ ⟨state, c.generation + 1⟩ now :: c.log }

/-- The snapshot a mutation produces. -/
def produced (state : FakeState) : FakeSnapshot := ⟨.fake, r, ⟨state, c.generation + 1⟩⟩

/-- The rejection of `apply_guarded` and `restore_guarded`. -/
def changed : Error :=
  .externalModification r "the current state changed since ownership was verified"

/-- `apply_guarded`: check and mutation are one step. -/
def applyGuarded (cause : Cause) (now : Instant) (fate : Fate) (expected : FakeSnapshot)
    (plan : NormalizedConfig) : MutationAttempt FakeSnapshotData × Cell :=
  match fate, interpretFull expected, c.state with
  | .fail message, _, _ => (.indeterminate (injected message) none, c)
  | _, .error error, _ => (.indeterminate error none, c)
  | _, .ok _, none => (.indeterminate (notPresent r) none, c)
  | fate, .ok data, some state =>
      if data = ⟨state, c.generation⟩ then
        let new := mergeState state plan
        match fate with
        | .proceed => (.performed (some (c.produced r new)), c.mutate cause state new now)
        | _ =>
            (.indeterminate (.platform .fake "injected partial mutation before failure")
              (some (c.produced r new)), c.mutate cause state new now)
      else (.rejected (changed r), c)

/-- `restore_guarded`: check and mutation are one step. -/
def restoreGuarded (cause : Cause) (now : Instant) (fate : Fate)
    (expected target : FakeSnapshot) : MutationAttempt FakeSnapshotData × Cell :=
  match fate with
  | .fail message => (.indeterminate (injected message) none, c)
  | .failAfter message => (.indeterminate (injected message) none, c)
  | .proceed =>
      if expected.resource ≠ r ∨ target.resource ≠ r then
        (.indeterminate (.platform .fake s!"snapshot resource mismatch for {r.asStr}") none, c)
      else
        match interpretFull expected, interpretFull target, c.state with
        | .error error, _, _ => (.indeterminate error none, c)
        | .ok _, .error error, _ => (.indeterminate error none, c)
        | .ok _, .ok _, none => (.indeterminate (notPresent r) none, c)
        | .ok data, .ok new, some state =>
            if data = ⟨state, c.generation⟩ then
              (.performed (some (c.produced r new.state)), c.mutate cause state new.state now)
            else (.rejected (changed r), c)

/-- `FakeBackend::apply`, the unguarded mutation. -/
def applyUnguarded (cause : Cause) (now : Instant) (fate : Fate) (plan : NormalizedConfig) :
    Except Error Unit × Cell :=
  match fate, c.state with
  | .fail message, _ => (.error (injected message), c)
  | _, none => (.error (notPresent r), c)
  | .proceed, some state => (.ok (), c.mutate cause state (mergeState state plan) now)
  | .failAfter _, some state =>
      (.error (.platform .fake "injected partial mutation before failure"),
        c.mutate cause state (mergeState state plan) now)

/-- `FakeBackend::restore`, the unguarded restoration. -/
def restoreUnguarded (cause : Cause) (now : Instant) (fate : Fate) (target : FakeSnapshot) :
    Except Error Unit × Cell :=
  match fate with
  | .fail message => (.error (injected message), c)
  | .failAfter message => (.error (injected message), c)
  | .proceed =>
      if target.resource ≠ r then
        (.error (.platform .fake
          s!"snapshot for resource {target.resource.asStr} cannot be restored onto {r.asStr}"), c)
      else
        match interpretFull target, c.state with
        | .error error, _ => (.error error, c)
        | .ok _, none => (.error (notPresent r), c)
        | .ok new, some state => (.ok (), c.mutate cause state new.state now)

/-! ### The journal -/

/-- The durable record of a lease on this resource. -/
def record (lease : LeaseId) : Option FakeRecord := c.journal.lookup lease

/-- The effect of publishing a record. -/
def publish (record : FakeRecord) : Cell :=
  { c with journal := c.journal.insert record.leaseId record }

/-- `JournalStore::write`: a failed write may or may not have published the record. -/
def journalWrite (fate : Fate) (record : FakeRecord) : Except Error Unit × Cell :=
  match fate with
  | .proceed =>
      (.ok (), { c.publish record with
        confirmed := Function.update c.confirmed record.leaseId (some record) })
  | .fail message =>
      (.error (.platform record.backend message), { c with
        confirmed := Function.update c.confirmed record.leaseId none })
  | .failAfter message =>
      (.error (.journalPublication true message), { c.publish record with
        confirmed := Function.update c.confirmed record.leaseId none })

/-- `JournalStore::remove`: a failed removal may or may not have removed the record. -/
def journalRemove (fate : Fate) (lease : LeaseId) (removal : Removal) :
    Except Error Unit × Cell :=
  let attempted := { c with
    removals := (lease, removal) :: c.removals
    confirmed := Function.update c.confirmed lease none }
  match fate with
  | .proceed => (.ok (), { attempted with journal := c.journal.erase lease })
  | .fail message => (.error (.platform .fake message), attempted)
  | .failAfter message =>
      (.error (.journalRemoval true message),
        { attempted with journal := c.journal.erase lease })

/-! ### Calls on one resource -/

/-- The engine's calls on this resource. -/
def execEngine (ctx : Context) (fate : Fate) :
    (o : EngineOp FakeSnapshotData FakeIdentity) →
      Option (EngineRet FakeSnapshotData FakeIdentity o × Cell)
  | .resourceStatus _ identity =>
      match fate with
      | .proceed => some (c.resourceStatus identity, c)
      | .fail message => some (.error (injected message), c)
      | .failAfter message => some (.error (injected message), c)
  | .readback _ _ =>
      match fate with
      | .proceed => some (c.read r, c)
      | .fail message => some (.error (injected message), c)
      | .failAfter message => some (.error (injected message), c)
  | .capture _ =>
      match fate with
      | .proceed => some (c.read r, c)
      | .fail message => some (.error (injected message), c)
      | .failAfter message => some (.error (injected message), c)
  | .observe _ =>
      match fate, c.snapshot r with
      | .proceed, some snapshot =>
          some (.ok ⟨⟨.fake, r, ⟨c.incarnation⟩⟩, snapshot⟩,
            { c with log := .captured ctx.session snapshot.data :: c.log })
      | .proceed, none => some (.error (.resourceGone .fake r "resource is absent"), c)
      | .fail message, _ => some (.error (injected message), c)
      | .failAfter message, _ => some (.error (injected message), c)
  | .applyGuarded cause _ expected plan =>
      some (c.applyGuarded r cause ctx.now fate expected plan)
  | .restoreGuarded cause _ expected target =>
      some (c.restoreGuarded r cause ctx.now fate expected target)
  | .apply cause _ plan => some (c.applyUnguarded r cause ctx.now fate plan)
  | .restore cause _ snapshot => some (c.restoreUnguarded r cause ctx.now fate snapshot)
  | .journalWrite record => some (c.journalWrite fate record)
  | .journalRemove lease _ removal => some (c.journalRemove fate lease removal)
  | .liveGet ref => (c.live ref.lease).map (·, c)
  | .liveSet ref live =>
      some ((), { c with live := Function.update c.live ref.lease (some live) })
  | .fire _ => none
  | .journalRecords => none
  | .newLeaseId => none

/-- The calls of a manager on this resource. -/
def exec (ctx : Context) (fate : Fate) :
    (o : ManagerOp FakeSnapshotData FakeIdentity) →
      Option (ManagerRet FakeSnapshotData FakeIdentity o × Cell)
  | .engine o => c.execEngine r ctx fate o
  | .acquire _ =>
      match fate, c.lock with
      | .proceed, none => some (.ok (), { c with lock := some (ctx.manager, ctx.session) })
      | .proceed, some _ => some (.error (.conflict r .alreadyLeasedInProcess), c)
      | .fail message, _ => some (.error (.io message), c)
      | .failAfter _, _ => some (.error (.timeout r "acquiring the resource lock"), c)
  | .tryAcquire _ =>
      match fate, c.lock with
      | .proceed, none => some (.ok true, { c with lock := some (ctx.manager, ctx.session) })
      | .proceed, some _ => some (.ok false, c)
      | .fail message, _ => some (.error (.io message), c)
      | .failAfter message, _ => some (.error (.io message), c)
  | .release _ => some ((), { c with lock := none })
  | .activeInsert ref =>
      some ((), { c with active := Function.update c.active ctx.manager (some ref.lease) })
  | .activeGet _ => some (c.active ctx.manager, c)
  | .activeRemove _ => some ((), { c with active := Function.update c.active ctx.manager none })
  | .tokenGet _ =>
      match c.token ctx.manager with
      | some token => some (token, c)
      | none =>
          some (ctx.nextToken,
            { c with token := Function.update c.token ctx.manager (some ctx.nextToken) })
  | .tokenRemove _ => some ((), { c with token := Function.update c.token ctx.manager none })
  | .enterSection ref =>
      some ((), { c with sections := ⟨ctx.manager, ctx.session, ref.lease⟩ :: c.sections })
  | .leaveSection ref =>
      some ((), { c with
        sections := c.sections.filter (· ≠ ⟨ctx.manager, ctx.session, ref.lease⟩) })
  | .defer _ delay failed =>
      let pending := Pending.deferAt delay failed ctx.now (c.pending ctx.manager)
      some ((), { c with pending := Function.update c.pending ctx.manager (some pending) })
  | .reconcilerRemove _ =>
      some ((), { c with
        pending := Function.update c.pending ctx.manager none
        breaker := Function.update c.breaker ctx.manager none })
  | .generationOf _ => some (((c.pending ctx.manager).map (·.generation)).getD 0, c)
  | .completeUnlessTouched _ generation =>
      let pending := Pending.completeUnlessTouched generation ctx.now (c.pending ctx.manager)
      some ((), { c with pending := Function.update c.pending ctx.manager pending })
  | .breakerGate _ =>
      let (answer, breaker) := ((c.breaker ctx.manager).getD {}).gate ctx.now
      some (answer, { c with breaker := Function.update c.breaker ctx.manager (some breaker) })
  | .resolveResources _ _ => none
  | .tokenLock _ => none
  | .tokenUnlock _ => none
  | .gateLock => none
  | .gateUnlock => none
  | .sleep _ => none
  | .enforceEnsure => none
  | .enforceRelease => none
  | .rescanEnforce => none

/-! ### External changes -/

/-- What others do to the native state of a resource: write it, replace it by a new incarnation,
remove it, or make its identity ambiguous.  Writes and replacements bump the generation. -/
inductive External : Cell → Cell → Prop
  | write (c : Cell) (state : FakeState) :
      External c { c with
        state := some state
        generation := c.generation + 1
        incarnation := if c.state.isNone then c.incarnation + 1 else c.incarnation
        writer := .external
        log := .external (some ⟨state, c.generation + 1⟩) :: c.log }
  | replace (c : Cell) (state : FakeState) :
      External c { c with
        state := some state
        generation := c.generation + 1
        incarnation := c.incarnation + 1
        writer := .external
        log := .external (some ⟨state, c.generation + 1⟩) :: c.log }
  | remove (c : Cell) :
      External c { c with state := none, writer := .external, log := .external none :: c.log }
  | setAmbiguous (c : Cell) (ambiguous : Bool) : External c { c with ambiguous }

end Cell

/-! ## Worlds -/

/-- How scopes resolve to resources: no list names a resource twice. -/
structure Topology where
  resolve : DnsScope → NormalizedConfig → Except Error (List ResourceId)
  nodup : ∀ scope plan resources, resolve scope plan = .ok resources → resources.Nodup

structure World where
  cells : ResourceId → Cell
  /-- The resources that ever had a journal file. -/
  names : List ResourceId
  topology : Topology
  clock : Instant
  nextToken : Token
  /-- The session holding each token of a manager. -/
  tokens : ManagerId → Token → Option SessionId
  gate : ManagerId → Option SessionId
  enforce : ManagerId → EnforceState

/-- A topology in which every scope is one resource. -/
def Topology.single (r : ResourceId) : Topology where
  resolve _ _ := .ok [r]
  nodup _ _ resources h := by
    obtain rfl := Except.ok.inj h
    exact List.nodup_singleton r

/-- A topology with one resource for the global scope and one for interfaces. -/
def Topology.pair (globalResource interfaceResource : ResourceId) : Topology where
  resolve scope _ :=
    match scope with
    | .global => .ok [globalResource]
    | .interface _ => .ok [interfaceResource]
  nodup scope _ resources h := by
    cases scope <;> obtain rfl := Except.ok.inj h <;> exact List.nodup_singleton _

/-- The world before anything happened, with the same native state everywhere. -/
def World.pristine (topology : Topology) (native : FakeState) : World where
  cells _ := { state := some native }
  names := []
  topology
  clock := 0
  nextToken := 0
  tokens _ _ := none
  gate _ := none
  enforce _ := {}

/-- The resource a call is about. -/
def EngineOp.target {D I : Type} : EngineOp D I → Option ResourceId
  | .fire _ => none
  | .resourceStatus _ identity => some identity.resource
  | .readback _ resource => some resource
  | .capture resource => some resource
  | .observe resource => some resource
  | .applyGuarded _ resource _ _ => some resource
  | .restoreGuarded _ resource _ _ => some resource
  | .apply _ resource _ => some resource
  | .restore _ resource _ => some resource
  | .journalWrite record => some record.resource
  | .journalRemove _ resource _ => some resource
  | .journalRecords => none
  | .newLeaseId => none
  | .liveGet ref => some ref.resource
  | .liveSet ref _ => some ref.resource

/-- The resource a call is about. -/
def ManagerOp.target {D I : Type} : ManagerOp D I → Option ResourceId
  | .engine o => o.target
  | .acquire resource => some resource
  | .tryAcquire resource => some resource
  | .release resource => some resource
  | .activeInsert ref => some ref.resource
  | .activeGet resource => some resource
  | .activeRemove resource => some resource
  | .tokenGet resource => some resource
  | .tokenRemove resource => some resource
  | .enterSection ref => some ref.resource
  | .leaveSection ref => some ref.resource
  | .defer resource _ _ => some resource
  | .reconcilerRemove resource => some resource
  | .generationOf resource => some resource
  | .completeUnlessTouched resource _ => some resource
  | .breakerGate resource => some resource
  | _ => none

namespace World

variable (w : World)

def setCell (r : ResourceId) (c : Cell) : World :=
  { w with cells := Function.update w.cells r c }

/-- Sets who holds a token. -/
def setToken (manager : ManagerId) (token : Token) (holder : Option SessionId) : World :=
  { w with
    tokens := Function.update w.tokens manager
      (Function.update (w.tokens manager) token holder) }

/-- All the records of the journal directory. -/
def records : List FakeRecord :=
  w.names.flatMap fun r => (w.cells r).journal.entries.map Sigma.snd

/-- The context of a call made now. -/
def context (session : SessionId) (manager : ManagerId) : Context :=
  ⟨session, manager, w.clock, w.nextToken⟩

/-- What a call on a resource changes outside the resource's cell: a written record has a file
name, and a new token takes the next number. -/
def account (o : ManagerOp FakeSnapshotData FakeIdentity) : World :=
  match o with
  | .engine (.journalWrite record) => { w with names := w.names.insert record.resource }
  | .tokenGet _ => { w with nextToken := w.nextToken + 1 }
  | _ => w

/-- The answer of `JournalStore::records`: at most one record per resource is readable. -/
def readRecords : Except Error (List FakeRecord) :=
  if (w.records.map (·.resource)).Nodup then .ok w.records
  else .error (.journalCorrupt "multiple records claim one resource")

/-- `touch` on every registered resource of a manager. -/
def touchActive (manager : ManagerId) : World :=
  { w with cells := fun r =>
      let c := w.cells r
      if (c.active manager).isSome then
        let pending := Pending.touch w.clock (c.pending manager)
        { c with pending := Function.update c.pending manager (some pending) }
      else c }

/-- The calls that are not about one resource. -/
def execGlobal (session : SessionId) (manager : ManagerId) (fate : Fate) :
    (o : ManagerOp FakeSnapshotData FakeIdentity) →
      Option (ManagerRet FakeSnapshotData FakeIdentity o × World)
  | .engine (.fire _) =>
      match fate with
      | .proceed => some (.ok (), w)
      | .fail message =>
          some (.error (.platform .fake s!"injected transaction failure: {message}"), w)
      | .failAfter message =>
          some (.error (.platform .fake s!"injected transaction failure: {message}"), w)
  | .engine .journalRecords =>
      match fate with
      | .proceed => some (w.readRecords, w)
      | .fail message => some (.error (.io message), w)
      | .failAfter message => some (.error (.io message), w)
  | .engine .newLeaseId => some (session, w)
  | .resolveResources scope plan =>
      match fate with
      | .proceed => some (w.topology.resolve scope plan, w)
      | .fail message => some (.error (.platform .fake message), w)
      | .failAfter message => some (.error (.platform .fake message), w)
  | .tokenLock token =>
      match w.tokens manager token with
      | some _ => none
      | none => some ((), w.setToken manager token (some session))
  | .tokenUnlock token => some ((), w.setToken manager token none)
  | .gateLock =>
      match w.gate manager with
      | some _ => none
      | none => some ((), { w with gate := Function.update w.gate manager (some session) })
  | .gateUnlock => some ((), { w with gate := Function.update w.gate manager none })
  | .sleep duration => some ((), { w with clock := w.clock + duration })
  | .enforceEnsure =>
      let started : Except Error Unit :=
        match fate with
        | .proceed => .ok ()
        | .fail message => .error (Cell.injected message)
        | .failAfter message => .error (Cell.injected message)
      let (answer, enforce) := (w.enforce manager).ensure started
      some (answer, { w with enforce := Function.update w.enforce manager enforce })
  | .enforceRelease =>
      some ((), { w with
        enforce := Function.update w.enforce manager (w.enforce manager).release })
  | .rescanEnforce =>
      some ((), if (w.enforce manager).feed then w.touchActive manager else w)
  | _ => none

/-- One call of a session. -/
def exec (session : SessionId) (manager : ManagerId) (fate : Fate)
    (o : ManagerOp FakeSnapshotData FakeIdentity) :
    Option (ManagerRet FakeSnapshotData FakeIdentity o × World) :=
  match o.target with
  | some r =>
      ((w.cells r).exec r (w.context session manager) fate o).map fun (answer, c) =>
        (answer, (w.setCell r c).account o)
  | none => w.execGlobal session manager fate o

end World

/-- Which calls may fail. -/
abbrev Faults := ManagerOp FakeSnapshotData FakeIdentity → Prop

/-- The possible answers of the world: only calls in `F` may fail. -/
def World.handler (F : Faults) (session : SessionId) (manager : ManagerId) :
    Handler (ManagerRet FakeSnapshotData FakeIdentity) World :=
  fun o w answer w' =>
    ∃ fate, (fate = .proceed ∨ F o) ∧ w.exec session manager fate o = some (answer, w')

end Osdns
