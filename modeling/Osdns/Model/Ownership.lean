import Mathlib.Data.List.Sort
import Osdns.Framework.Logic
import Osdns.Model.Config

/-!
# Resource locks

`ownership.rs`: exclusive locks on resources, made of two layers.  Each process keeps a registry of
the resources it has locked, and the operating system locks one file per resource.  `acquire` asks
the registry, takes the file lock and then enters the resource into the registry; dropping a
`ResourceLock` takes the resource out of the registry and then closes the file.

All lock managers here share one lock directory and one ownership namespace, so a registry key is
a resource.  The locks of other namespaces and directories have nothing to do with these.

`Manager.apply` and its siblings use locks through the calls `acquire`, `tryAcquire` and `release`
of `Model/ManagerCalls.lean`; this module is what is behind them.
-/

namespace Osdns

open Interaction
open Interaction.Fallible (ask value attempt)

abbrev ThreadId := Nat

abbrev ProcessId := Nat

/-- An open file: one per call of `open_lock_file`. -/
abbrev FileId := Nat

/-- `ResourceLock`: a held exclusive lock over one resource. -/
@[ext, grind ext]
structure ResourceLock where
  file : FileId
  resource : ResourceId
  deriving DecidableEq

/-- The result of `File::try_lock`. -/
inductive TryLock
  | ok
  | wouldBlock
  | error (message : String)

/-! ## Calls

`registryInsert` and `registryRemove` name the lock that is created and dropped with them, only to
label the calls. -/

inductive LockOp
  | ensureDir
  | registryContains (resource : ResourceId)
  | registryInsert (lock : ResourceLock)
  | registryRemove (lock : ResourceLock)
  | openLockFile (resource : ResourceId)
  | tryLock (file : FileId)
  | closeFile (file : FileId)
  | sleep

@[reducible] def LockRet : LockOp → Type
  | .ensureDir => Except Error Unit
  | .registryContains _ => Bool
  | .registryInsert _ => Unit
  | .registryRemove _ => Unit
  | .openLockFile _ => Except Error FileId
  | .tryLock _ => TryLock
  | .closeFile _ => Unit
  | .sleep => Unit

abbrev Locking (α : Type) : Type := Program LockRet α

abbrev LockingResult (α : Type) : Type := Fallible Error LockRet α

namespace Locking

def ensureDir : Locking (Except Error Unit) := .call .ensureDir .done

def registryContains (resource : ResourceId) : Locking Bool :=
  .call (.registryContains resource) .done

def registryInsert (lock : ResourceLock) : Locking Unit := .call (.registryInsert lock) .done

def registryRemove (lock : ResourceLock) : Locking Unit := .call (.registryRemove lock) .done

def openLockFile (resource : ResourceId) : Locking (Except Error FileId) :=
  .call (.openLockFile resource) .done

def tryLock (file : FileId) : Locking TryLock := .call (.tryLock file) .done

def closeFile (file : FileId) : Locking Unit := .call (.closeFile file) .done

def sleep : Locking Unit := .call .sleep .done

end Locking

open Locking

/-! ## Operations -/

/-- The loop of `acquire`: `polls` is how often it finds the file locked before the deadline.  The
file is closed on every failure. -/
def acquireLoop (resource : ResourceId) (file : FileId) (polls : Nat) :
    LockingResult ResourceLock := do
  if ← value (registryContains resource) then
    value (closeFile file)
    throw (.conflict resource .alreadyLeasedInProcess)
  else
  match ← value (tryLock file) with
  | .ok =>
      value (registryInsert ⟨file, resource⟩)
      return ⟨file, resource⟩
  | .wouldBlock =>
      match polls with
      | 0 =>
          value (closeFile file)
          throw (.timeout resource "acquiring the resource lock")
      | polls + 1 =>
          value sleep
          acquireLoop resource file polls
  | .error message =>
      value (closeFile file)
      throw (.io message)

/-- `ResourceLockManager::acquire`. -/
def acquireLock (resource : ResourceId) (polls : Nat) : LockingResult ResourceLock := do
  ask ensureDir
  let file ← ask (openLockFile resource)
  acquireLoop resource file polls

/-- `Drop for ResourceLock`: first the registry key, then the file goes. -/
def dropLock (lock : ResourceLock) : Locking Unit := do
  registryRemove lock
  closeFile lock.file

/-- Dropping a vector of locks. -/
def dropLocks : List ResourceLock → Locking Unit
  | [] => return
  | lock :: locks => do
      dropLock lock
      dropLocks locks

/-- The loop of `acquire_all`; `locks` are the locks acquired so far. -/
def acquireEach (polls : ResourceId → Nat) (locks : List ResourceLock) :
    List ResourceId → LockingResult (List ResourceLock)
  | [] => return locks
  | resource :: resources => do
      match ← attempt (acquireLock resource (polls resource)) with
      | .ok lock => acquireEach polls (locks ++ [lock]) resources
      | .error error =>
          value (dropLocks locks)
          throw error

/-- `ResourceLockManager::acquire_all`: sorts, removes duplicates and acquires in that order. -/
def acquireAllLocks (polls : ResourceId → Nat) (resources : List ResourceId) :
    LockingResult (List ResourceLock) :=
  acquireEach polls [] (resources.insertionSort (fun a b => a.text ≤ b.text)).dedup

/-- `ResourceLockManager::try_acquire`. -/
def tryAcquireLock (resource : ResourceId) : LockingResult (Option ResourceLock) := do
  ask ensureDir
  if ← value (registryContains resource) then return none
  else
  let file ← ask (openLockFile resource)
  match ← value (tryLock file) with
  | .ok =>
      value (registryInsert ⟨file, resource⟩)
      return some ⟨file, resource⟩
  | .wouldBlock =>
      value (closeFile file)
      return none
  | .error message =>
      value (closeFile file)
      throw (.io message)

/-! ## The world of locks -/

/-- An open lock file: the thread that answers for it and the resource it stands for. -/
structure OpenFile where
  thread : ThreadId
  resource : ResourceId
  deriving DecidableEq

structure LockWorld where
  registry : ProcessId → ResourceId → Bool
  files : FileId → Option OpenFile
  /-- The file that holds the operating system's lock for a resource. -/
  locked : ResourceId → Option FileId
  /-- Whether a `ResourceLock` over the file exists; recorded only. -/
  live : FileId → Bool
  nextFile : FileId

namespace LockWorld

variable (w : LockWorld)

def setRegistry (p : ProcessId) (r : ResourceId) (present : Bool) : LockWorld :=
  { w with registry := Function.update w.registry p (Function.update (w.registry p) r present) }

@[simp, grind =] lemma setRegistry_registry (p q : ProcessId) (r r' : ResourceId)
    (present : Bool) :
    (w.setRegistry p r present).registry q r' =
      if q = p ∧ r' = r then present else w.registry q r' := by
  simp only [setRegistry, Function.update_apply]
  by_cases hq : q = p
  · subst hq
    simp [Function.update_apply]
  · simp [hq]

@[simp, grind =] lemma setRegistry_files (p : ProcessId) (r : ResourceId) (present : Bool) :
    (w.setRegistry p r present).files = w.files := rfl

@[simp, grind =] lemma setRegistry_locked (p : ProcessId) (r : ResourceId) (present : Bool) :
    (w.setRegistry p r present).locked = w.locked := rfl

/-- What a call of thread `t` of process `p` does.  With `fault`, a call of the file system
fails. -/
def exec (t : ThreadId) (p : ProcessId) (fault : Option String) :
    (o : LockOp) → Option (LockRet o × LockWorld)
  | .ensureDir =>
      match fault with
      | none => some (.ok (), w)
      | some message => some (.error (.io message), w)
  | .registryContains r => some (w.registry p r, w)
  | .registryInsert lock => some ((), { w.setRegistry p lock.resource true with
      live := Function.update w.live lock.file true })
  | .registryRemove lock => some ((), { w.setRegistry p lock.resource false with
      live := Function.update w.live lock.file false })
  | .openLockFile r =>
      match fault with
      | none => some (.ok w.nextFile, { w with
          files := Function.update w.files w.nextFile (some ⟨t, r⟩)
          nextFile := w.nextFile + 1 })
      | some message => some (.error (.io message), w)
  | .tryLock f =>
      match fault, w.files f with
      | _, none => none
      | some message, some _ => some (.error message, w)
      | none, some file =>
          match w.locked file.resource with
          | some _ => some (.wouldBlock, w)
          | none => some (.ok, { w with locked := Function.update w.locked file.resource (some f) })
  | .closeFile f => some ((), { w with
      files := Function.update w.files f none
      locked := fun r => if w.locked r = some f then none else w.locked r })
  | .sleep => some ((), w)

end LockWorld

/-! ## Threads -/

inductive LockRequest
  | acquire (resource : ResourceId) (polls : Nat)
  | acquireAll (resources : List ResourceId) (polls : ResourceId → Nat)
  | tryAcquire (resource : ResourceId)
  | drop (lock : ResourceLock)

/-- The program of a request; it answers with the locks it hands out. -/
def LockRequest.program : LockRequest → Locking (Except Error (List ResourceLock))
  | .acquire resource polls => ((fun lock => [lock]) <$> acquireLock resource polls).run
  | .acquireAll resources polls => (acquireAllLocks polls resources).run
  | .tryAcquire resource => (Option.toList <$> tryAcquireLock resource).run
  | .drop lock => do
      dropLock lock
      return .ok []

/-- A call in progress: what was asked, whether the thread held no lock then, and what is left to
do. -/
structure LockCall where
  request : LockRequest
  bare : Bool
  program : Locking (Except Error (List ResourceLock))

structure LockSystem where
  world : LockWorld
  calls : ThreadId → Option LockCall
  /-- The locks a thread holds outside of the call in progress. -/
  owned : ThreadId → List ResourceLock

namespace LockSystem

/-- The locks a started request takes away from its thread. -/
def taken : LockRequest → List ResourceLock
  | .drop lock => [lock]
  | _ => []

/-- One step of the threads, where `process` says which process each belongs to. -/
inductive Step (process : ThreadId → ProcessId) : LockSystem → LockSystem → Prop
  | start (s : LockSystem) (t : ThreadId) (request : LockRequest) (idle : s.calls t = none)
      (holds : ∀ lock ∈ taken request, lock ∈ s.owned t) :
      Step process s { s with
        calls := Function.update s.calls t (some ⟨request, (s.owned t).isEmpty, request.program⟩)
        owned := Function.update s.owned t ((s.owned t).diff (taken request)) }
  | call (s : LockSystem) (t : ThreadId) (call : LockCall) (o : LockOp)
      (k : LockRet o → Locking (Except Error (List ResourceLock))) (fault : Option String)
      (answer : LockRet o) (w : LockWorld)
      (running : s.calls t = some call) (program : call.program = .call o k)
      (answered : s.world.exec t (process t) fault o = some (answer, w)) :
      Step process s { s with
        world := w
        calls := Function.update s.calls t (some { call with program := k answer }) }
  | finish (s : LockSystem) (t : ThreadId) (call : LockCall)
      (outcome : Except Error (List ResourceLock))
      (running : s.calls t = some call) (program : call.program = .done outcome) :
      Step process s { s with
        calls := Function.update s.calls t none
        owned := Function.update s.owned t (s.owned t ++ outcome.toOption.getD []) }
  /-- A lock moves to an idle thread of the same process. -/
  | give (s : LockSystem) (t u : ThreadId) (lock : ResourceLock) (holds : lock ∈ s.owned t)
      (same : process u = process t) (idle : s.calls u = none) (other : t ≠ u) :
      Step process s { s with
        world := { s.world with
          files := Function.update s.world.files lock.file (some ⟨u, lock.resource⟩) }
        owned := Function.update (Function.update s.owned t ((s.owned t).erase lock)) u
          (s.owned u ++ [lock]) }

/-- No thread has done anything. -/
structure Initial (s : LockSystem) : Prop where
  registry : ∀ p r, s.world.registry p r = false
  files : ∀ f, s.world.files f = none
  locked : ∀ r, s.world.locked r = none
  live : ∀ f, s.world.live f = false
  calls : ∀ t, s.calls t = none
  owned : ∀ t, s.owned t = []

inductive Reachable (process : ThreadId → ProcessId) : LockSystem → Prop
  | init {s : LockSystem} (h : Initial s) : Reachable process s
  | step {s t : LockSystem} (h : Reachable process s) (hst : Step process s t) :
      Reachable process t

end LockSystem

end Osdns
