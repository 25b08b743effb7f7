import Osdns.Framework.Discipline
import Osdns.Model.Ownership

/-!
# What one thread does with its locks

A thread inside a lock request is described by what it holds: the locks of the request and at most
one file that is on its way to become a lock or has just stopped being one.  `LockHolding` is that
description and `lockDiscipline` says which calls fit it.  The four requests follow the discipline,
and hand out exactly the locks they still hold when they stop.
-/

namespace Osdns

open Interaction
open Interaction.Fallible (ask value attempt)
open Locking

/-- How far an open file is from being a lock. -/
inductive LockStage
  /-- Opened; the operating system's lock is not held. -/
  | opened
  /-- The operating system's lock is held, the registry key is not yet in. -/
  | locked
  /-- The registry key is out, the file not yet closed. -/
  | dying
  deriving DecidableEq

/-- What a thread holds for the request it is in. -/
structure LockHolding where
  locks : List ResourceLock
  pending : Option (ResourceLock × LockStage)

namespace LockHolding

/-- Locks and nothing pending. -/
def settled (locks : List ResourceLock) : LockHolding := ⟨locks, none⟩

@[simp, grind =] lemma settled_locks (locks : List ResourceLock) : (settled locks).locks = locks := rfl

@[simp, grind =] lemma settled_pending (locks : List ResourceLock) : (settled locks).pending = none := rfl

/-- What a holding becomes when a call is answered. -/
def next (h : LockHolding) : (o : LockOp) → LockRet o → LockHolding
  | .openLockFile r, .ok f => { h with pending := some (⟨f, r⟩, .opened) }
  | .tryLock _, .ok => { h with pending := h.pending.map fun p => (p.1, .locked) }
  | .registryInsert lock, _ => settled (h.locks ++ [lock])
  | .registryRemove lock, _ => ⟨h.locks.erase lock, some (lock, .dying)⟩
  | .closeFile _, _ => settled h.locks
  | _, _ => h

/-- The calls that fit a holding.  A file is opened only above every lock of the request. -/
def Allows (h : LockHolding) : LockOp → Prop
  | .openLockFile r => h.pending = none ∧ ∀ lock ∈ h.locks, lock.resource.text < r.text
  | .tryLock f => ∃ r, h.pending = some (⟨f, r⟩, .opened)
  | .registryInsert lock => h.pending = some (lock, .locked)
  | .registryRemove lock => lock ∈ h.locks ∧ h.pending = none
  | .closeFile f => ∃ r stage, h.pending = some (⟨f, r⟩, stage) ∧ stage ≠ .locked
  | _ => True

end LockHolding

/-- The discipline of the threads. -/
def lockDiscipline : Discipline LockRet LockHolding where
  allows := LockHolding.Allows
  expects _ _ _ := True
  next := LockHolding.next

/-- A request stops with the locks it hands out, and with nothing pending. -/
def HandsOut (outcome : Except Error (List ResourceLock)) (h : LockHolding) : Prop :=
  h = .settled (outcome.toOption.getD [])

/-! ## Acquiring one lock -/

/-- `acquire` adds its lock, or leaves everything as it was. -/
def Acquired (locks : List ResourceLock) (resource : ResourceId) :
    Except Error ResourceLock → LockHolding → Prop
  | .ok lock, h => lock.resource = resource ∧ h = .settled (locks ++ [lock])
  | .error _, h => h = .settled locks

section Follows

variable {locks : List ResourceLock}

lemma follows_acquireLoop (resource : ResourceId) (file : FileId) (polls : Nat) :
    (acquireLoop resource file polls).run.Follows lockDiscipline (Acquired locks resource)
      ⟨locks, some (⟨file, resource⟩, .opened)⟩ := by
  induction polls with
  | zero =>
      unfold acquireLoop
      refine ⟨trivial, fun known _ => ?_⟩
      cases known with
      | true => exact ⟨⟨resource, .opened, rfl, by simp⟩, fun _ _ => rfl⟩
      | false =>
          refine ⟨⟨resource, rfl⟩, fun answer _ => ?_⟩
          cases answer with
          | ok => exact ⟨rfl, fun _ _ => ⟨rfl, rfl⟩⟩
          | wouldBlock => exact ⟨⟨resource, .opened, rfl, by simp⟩, fun _ _ => rfl⟩
          | error message => exact ⟨⟨resource, .opened, rfl, by simp⟩, fun _ _ => rfl⟩
  | succ polls ih =>
      unfold acquireLoop
      refine ⟨trivial, fun known _ => ?_⟩
      cases known with
      | true => exact ⟨⟨resource, .opened, rfl, by simp⟩, fun _ _ => rfl⟩
      | false =>
          refine ⟨⟨resource, rfl⟩, fun answer _ => ?_⟩
          cases answer with
          | ok => exact ⟨rfl, fun _ _ => ⟨rfl, rfl⟩⟩
          | wouldBlock => exact ⟨trivial, fun _ _ => ih⟩
          | error message => exact ⟨⟨resource, .opened, rfl, by simp⟩, fun _ _ => rfl⟩

lemma follows_acquireLock {resource : ResourceId} (polls : Nat)
    (above : ∀ lock ∈ locks, lock.resource.text < resource.text) :
    (acquireLock resource polls).run.Follows lockDiscipline (Acquired locks resource)
      (.settled locks) := by
  unfold acquireLock
  refine ⟨trivial, fun ready _ => ?_⟩
  cases ready with
  | error e => rfl
  | ok _ =>
      refine ⟨⟨rfl, above⟩, fun file _ => ?_⟩
      cases file with
      | error e => rfl
      | ok file => exact follows_acquireLoop resource file polls

lemma follows_tryAcquireLock (resource : ResourceId) :
    (tryAcquireLock resource).run.Follows lockDiscipline
      (fun outcome h => h = .settled ((outcome.toOption.getD none).toList)) (.settled []) := by
  unfold tryAcquireLock
  refine ⟨trivial, fun ready _ => ?_⟩
  cases ready with
  | error e => rfl
  | ok _ =>
      refine ⟨trivial, fun known _ => ?_⟩
      cases known with
      | true => rfl
      | false =>
          refine ⟨⟨rfl, fun lock hl => nomatch hl⟩, fun file _ => ?_⟩
          cases file with
          | error e => rfl
          | ok file =>
              refine ⟨⟨resource, rfl⟩, fun answer _ => ?_⟩
              cases answer with
              | ok => exact ⟨rfl, fun _ _ => rfl⟩
              | wouldBlock => exact ⟨⟨resource, .opened, rfl, by simp⟩, fun _ _ => rfl⟩
              | error message => exact ⟨⟨resource, .opened, rfl, by simp⟩, fun _ _ => rfl⟩

/-! ## Dropping -/

lemma follows_dropLock {lock : ResourceLock} (held : lock ∈ locks) :
    (dropLock lock).Follows lockDiscipline (fun _ h => h = .settled (locks.erase lock))
      (.settled locks) :=
  ⟨⟨held, rfl⟩, fun _ _ => ⟨⟨lock.resource, .dying, rfl, by simp⟩, fun _ _ => rfl⟩⟩

lemma follows_dropLocks (locks : List ResourceLock) :
    (dropLocks locks).Follows lockDiscipline (fun _ h => h = .settled []) (.settled locks) := by
  induction locks with
  | nil => rfl
  | cons lock locks ih =>
      have first := follows_dropLock (List.mem_cons_self (a := lock) (l := locks))
      rw [List.erase_cons_head] at first
      exact first.bind fun _ h hh => hh ▸ ih

/-! ## Acquiring many -/

/-- The loop of `acquire_all` over resources in ascending order, all of them above the locks it
has. -/
lemma follows_acquireEach (polls : ResourceId → Nat) {resources : List ResourceId}
    (ascending : resources.Pairwise fun a b => a.text < b.text)
    (above : ∀ lock ∈ locks, ∀ resource ∈ resources, lock.resource.text < resource.text) :
    (acquireEach polls locks resources).run.Follows lockDiscipline HandsOut
      (.settled locks) := by
  induction resources generalizing locks with
  | nil => rfl
  | cons resource resources ih =>
      obtain ⟨least, ascending⟩ := List.pairwise_cons.mp ascending
      have acquired : (acquireLock resource (polls resource)).run.Follows lockDiscipline
          (Acquired locks resource) (.settled locks) :=
        follows_acquireLock _ fun lock hl => above lock hl resource List.mem_cons_self
      unfold acquireEach
      refine Fallible.follows_value acquired fun outcome h hh => ?_
      cases outcome with
      | error e =>
          obtain rfl : h = _ := hh
          exact Fallible.follows_value (follows_dropLocks locks) fun _ h hh => hh
      | ok lock =>
          obtain ⟨hr, rfl⟩ := hh
          refine ih ascending fun l hl r hr' => ?_
          rcases List.mem_append.mp hl with hl | hl
          · exact above l hl r (List.mem_cons_of_mem _ hr')
          · obtain rfl := List.mem_singleton.mp hl
            exact hr ▸ least r hr'

/-- Sorted and free of duplicates is ascending. -/
lemma ascending_sorted (resources : List ResourceId) :
    (resources.insertionSort (fun a b => a.text ≤ b.text)).dedup.Pairwise
      fun a b => a.text < b.text := by
  have : Std.Total fun a b : ResourceId => a.text ≤ b.text :=
    ⟨fun a b => le_total a.text b.text⟩
  have : IsTrans ResourceId fun a b => a.text ≤ b.text := ⟨fun _ _ _ => le_trans⟩
  have sorted := (List.pairwise_insertionSort (fun a b : ResourceId => a.text ≤ b.text)
    resources).sublist (List.dedup_sublist _)
  refine (sorted.and (List.nodup_dedup _)).imp fun {a b} h => ?_
  by_contra less
  have equal : a.text = b.text := le_antisymm h.1 (not_lt.mp less)
  obtain ⟨x, hx⟩ := a
  obtain ⟨y, hy⟩ := b
  obtain rfl : x = y := equal
  exact h.2 rfl

/-- A request stays within the locks it was started with and those it acquires. -/
lemma LockRequest.follows (request : LockRequest) :
    request.program.Follows lockDiscipline HandsOut (.settled (LockSystem.taken request)) := by
  cases request with
  | acquire resource polls =>
      refine Program.Follows.bind (follows_acquireLock polls fun lock hl => nomatch hl) fun outcome h hh => ?_
      cases outcome with
      | ok lock => exact hh.2
      | error e => exact hh
  | acquireAll resources polls => exact follows_acquireEach polls (ascending_sorted _) fun lock hl => nomatch hl
  | tryAcquire resource =>
      refine Program.Follows.bind (follows_tryAcquireLock resource) fun outcome h hh => ?_
      cases outcome with
      | ok lock => exact hh
      | error e => exact hh
  | drop lock =>
      have dropped := follows_dropLock (List.mem_singleton_self lock)
      rw [List.erase_cons_head] at dropped
      exact dropped.bind fun _ h hh => hh

end Follows

end Osdns
