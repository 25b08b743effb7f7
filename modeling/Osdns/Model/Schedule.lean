import Mathlib.Algebra.Group.Nat.Defs
import Osdns.Model.Config

/-!
# The reconciler's bookkeeping

The pure state machines behind `reconciliation.rs` and the Enforce observation of `manager.rs`:
the pending set, the circuit breaker and the reference count.  Each function is one critical
section of the source on one map entry, with the clock reading it makes as an argument.

Instants and durations are natural numbers of nanoseconds.
-/

namespace Osdns

/-! ## Time -/

abbrev Instant := Nat

abbrev Duration := Nat

/-- `Duration::from_millis`. -/
def millis (n : Nat) : Duration := n * 1000000

/-- Two read-backs separated by this window must agree before the state is actionable. -/
def stableWindow : Duration := millis 100

def unstableRetry : Duration := millis 200

def errorRetry : Duration := millis 250

def identityRetry : Duration := millis 5000

def breakerWindow : Duration := millis 5000

def breakerThreshold : Nat := 6

def breakerCooldown : Duration := millis 2000

def maxErrorRetry : Duration := millis 30000

/-- `saturating_add(1)` on a counter with the given largest value. -/
def saturatingSucc (max n : Nat) : Nat := min (n + 1) max

/-! ## The pending set -/

/-- A resource awaiting reconciliation. -/
structure Pending where
  readyAt : Instant
  generation : Nat
  consecutiveErrors : Nat
  deriving DecidableEq

/-- `touch`: an already pending resource keeps its scheduled time. -/
def Pending.touch (now : Instant) : Option Pending → Pending
  | some p => { p with generation := saturatingSucc (2 ^ 64 - 1) p.generation }
  | none => { readyAt := now, generation := 0, consecutiveErrors := 0 }

/-- `defer_at`. -/
def Pending.deferAt (delay : Duration) (failed : Bool) (now : Instant) (p : Option Pending) :
    Pending :=
  let entry := p.getD { readyAt := now + delay, generation := 0, consecutiveErrors := 0 }
  let errors := if failed then saturatingSucc (2 ^ 32 - 1) entry.consecutiveErrors else 0
  let delay := if failed then min (delay * 2 ^ min (errors - 1) 7) maxErrorRetry else delay
  { entry with consecutiveErrors := errors, readyAt := max entry.readyAt (now + delay) }

/-- `complete_unless_touched`: a touch that arrived during the pass keeps the resource due. -/
def Pending.completeUnlessTouched (generation : Nat) (now : Instant) :
    Option Pending → Option Pending
  | some p =>
      if p.generation ≠ generation then some { p with readyAt := now, consecutiveErrors := 0 }
      else none
  | none => none

/-! ## The circuit breaker -/

/-- The recent admissions of one resource, oldest first, and how long the breaker stays open. -/
structure BreakerState where
  attempts : List Instant := []
  openUntil : Option Instant := none
  deriving DecidableEq

/-- The part of `breaker_gate` behind the open check: drops attempts outside the window, then
admits or opens. -/
def BreakerState.admit (now : Instant) (attempts : List Instant) :
    Option Duration × BreakerState :=
  let recent := attempts.dropWhile fun oldest => breakerWindow < now - oldest
  if breakerThreshold ≤ recent.length then
    (some breakerCooldown, { attempts := [], openUntil := some (now + breakerCooldown) })
  else (none, { attempts := recent ++ [now], openUntil := none })

/-- `breaker_gate`: `none` admits a rebase, `some` is the time to wait. -/
def BreakerState.gate (now : Instant) (state : BreakerState) : Option Duration × BreakerState :=
  match state.openUntil with
  | some openUntil =>
      if now < openUntil then (some (openUntil - now), state)
      else BreakerState.admit now []
  | none => BreakerState.admit now state.attempts

/-! ## The Enforce observation -/

/-- Internal observation state of an Enforce manager.  `handle` and `feed` say whether the native
watch and the reconciler feed exist. -/
structure EnforceState where
  refs : Nat := 0
  handle : Bool := false
  feed : Bool := false
  parked : Bool := false
  deriving DecidableEq

/-- `ensure_enforce_watch` under the lock.  `started` is the outcome of spawning the reconciler
and starting the watch, which only the first reference does. -/
def EnforceState.ensure (started : Except Error Unit) (enforce : EnforceState) :
    Except Error Unit × EnforceState :=
  if enforce.refs = 0 then
    match started with
    | .ok _ => (.ok (), { refs := 1, handle := true, feed := true, parked := false })
    | .error error => (.error error, enforce)
  else (.ok (), { enforce with refs := enforce.refs + 1 })

/-- `release_enforce_watch` under the lock. -/
def EnforceState.release (enforce : EnforceState) : EnforceState :=
  if enforce.refs = 0 then enforce
  else if enforce.refs = 1 then { refs := 0, handle := false, feed := false, parked := false }
  else { enforce with refs := enforce.refs - 1 }

end Osdns
