import Mathlib.Algebra.Order.BigOperators.Group.List
import Mathlib.Algebra.Order.Group.Nat
import Mathlib.Data.List.Induction
import Osdns.Model.Schedule

/-!
# When a pending resource is due

The entry of one resource in the pending set of `reconciliation.rs`, over a sequence of calls of
`touch`, `defer_at`, `complete_unless_touched` and `remove`.  Events only count up the generation,
deferrals only move the ready time later, and errors back off exponentially up to a bound.
-/

namespace Osdns

namespace Pending

/-! ## Calls on an entry -/

/-- A call of `Reconciler` on one resource. -/
inductive Call
  | touch
  | deferAt (delay : Duration) (failed : Bool)
  | completeUnlessTouched (generation : Nat)
  | remove
  deriving DecidableEq

/-- A call with the clock reading that it makes. -/
structure TimedCall where
  now : Instant
  call : Call
  deriving DecidableEq

/-- What a call leaves of the entry. -/
def perform (entry : Option Pending) (timed : TimedCall) : Option Pending :=
  match timed.call with
  | .touch => some (touch timed.now entry)
  | .deferAt delay failed => some (deferAt delay failed timed.now entry)
  | .completeUnlessTouched generation => completeUnlessTouched generation timed.now entry
  | .remove => none

/-- The entry after calls on a resource that was not pending. -/
def after (history : List TimedCall) : Option Pending := history.foldl perform none

/-- The clock does not go back, and no delay is above the longest retry. -/
structure Legal (history : List TimedCall) : Prop where
  monotone : (history.map TimedCall.now).Pairwise (· ≤ ·)
  delays : ∀ now delay failed, ⟨now, .deferAt delay failed⟩ ∈ history → delay ≤ maxErrorRetry

/-- The call is a `touch` or a failed deferral. -/
def Call.keepsFailing : Call → Bool
  | .touch => true
  | .deferAt _ failed => failed
  | .completeUnlessTouched _ => false
  | .remove => false

/-- The call is a failed deferral. -/
def Call.isFailure : Call → Bool
  | .deferAt _ failed => failed
  | _ => false

/-- The number of failed deferrals. -/
def failures (history : List TimedCall) : Nat :=
  history.countP fun timed => timed.call.isFailure

/-! ## One call -/

/-- The errors counted so far; none when the resource is not pending. -/
def errors (entry : Option Pending) : Nat := (entry.map consecutiveErrors).getD 0

/-- The delay of a failed deferral after this many errors. -/
def backoff (delay : Duration) (errors : Nat) : Duration :=
  min (delay * 2 ^ min (errors - 1) 7) maxErrorRetry

variable {entry : Option Pending} {now clock : Instant} {delay : Duration} {failed : Bool}

@[simp] lemma errors_touch : errors (some (touch now entry)) = errors entry := by
  cases entry <;> rfl

@[simp] lemma errors_deferAt_failed :
    errors (some (deferAt delay true now entry)) = saturatingSucc (2 ^ 32 - 1) (errors entry) := by
  cases entry <;> rfl

lemma le_readyAt_deferAt (p : Pending) : p.readyAt ≤ (deferAt delay failed now (some p)).readyAt :=
  le_max_left _ _

lemma backoff_le_readyAt :
    now + backoff delay (saturatingSucc (2 ^ 32 - 1) (errors entry)) ≤
      (deferAt delay true now entry).readyAt := by
  cases entry <;> exact le_max_right _ _

/-- What is known of an entry at this time. -/
structure Bounded (clock : Instant) (p : Pending) : Prop where
  due : p.readyAt ≤ clock + maxErrorRetry
  generation : p.generation < 2 ^ 64
  consecutiveErrors : p.consecutiveErrors < 2 ^ 32

lemma Bounded.later {p : Pending} (h : Bounded clock p) (tick : clock ≤ now) : Bounded now p :=
  { h with due := h.due.trans (Nat.add_le_add_right tick _) }

lemma saturatingSucc_lt {max n bound : Nat} (h : max < bound) : saturatingSucc max n < bound :=
  (Nat.min_le_right _ _).trans_lt h

lemma bounded_touch (h : ∀ p, entry = some p → Bounded now p) : Bounded now (touch now entry) := by
  cases entry with
  | none => exact ⟨Nat.le_add_right _ _, Nat.two_pow_pos 64, Nat.two_pow_pos 32⟩
  | some p =>
      have known := h p rfl
      exact { known with generation := saturatingSucc_lt (by decide) }

lemma bounded_deferAt (h : ∀ p, entry = some p → Bounded now p) (legal : delay ≤ maxErrorRetry) :
    Bounded now (deferAt delay failed now entry) := by
  have start : Bounded now (entry.getD ⟨now + delay, 0, 0⟩) := by
    cases entry with
    | none => exact ⟨Nat.add_le_add_left legal _, Nat.two_pow_pos 64, Nat.two_pow_pos 32⟩
    | some p => exact h p rfl
  refine ⟨max_le start.due (Nat.add_le_add_left ?_ _), start.generation, ?_⟩
  · split
    · exact Nat.min_le_right _ _
    · exact legal
  · unfold deferAt
    dsimp only
    split
    · exact saturatingSucc_lt (by decide)
    · decide

lemma bounded_completeUnlessTouched {generation : Nat} (h : ∀ p, entry = some p → Bounded now p) :
    ∀ p, completeUnlessTouched generation now entry = some p → Bounded now p := by
  intro p hp
  cases entry with
  | none => cases hp
  | some q =>
      by_cases touched : q.generation ≠ generation
      · rw [completeUnlessTouched, if_pos touched] at hp
        cases hp
        exact ⟨Nat.le_add_right _ _, (h q rfl).generation, Nat.two_pow_pos 32⟩
      · rw [completeUnlessTouched, if_neg touched] at hp
        cases hp

/-- A call keeps what is known. -/
lemma bounded_perform {timed : TimedCall} (h : ∀ p, entry = some p → Bounded clock p)
    (tick : clock ≤ timed.now)
    (legal : ∀ delay failed, timed.call = .deferAt delay failed → delay ≤ maxErrorRetry) :
    ∀ p, perform entry timed = some p → Bounded timed.now p := by
  intro p hp
  have known : ∀ p, entry = some p → Bounded timed.now p := fun p hp => (h p hp).later tick
  unfold perform at hp
  cases hc : timed.call with
  | touch =>
      rw [hc] at hp
      cases hp
      exact bounded_touch known
  | deferAt delay failed =>
      rw [hc] at hp
      cases hp
      exact bounded_deferAt known (legal delay failed hc)
  | completeUnlessTouched generation =>
      rw [hc] at hp
      exact bounded_completeUnlessTouched known p hp
  | remove =>
      rw [hc] at hp
      cases hp

/-! ## Sequences of calls -/

variable {history more streak : List TimedCall}

lemma Legal.front (legal : Legal (history ++ more)) : Legal history where
  monotone := by
    have := legal.monotone
    rw [List.map_append, List.pairwise_append] at this
    exact this.1
  delays := fun now delay failed h => legal.delays now delay failed (List.mem_append_left _ h)

lemma Legal.before (legal : Legal (history ++ more)) {s t : TimedCall} (hs : s ∈ history)
    (ht : t ∈ more) : s.now ≤ t.now := by
  have := legal.monotone
  rw [List.map_append, List.pairwise_append] at this
  exact this.2.2 s.now (List.mem_map_of_mem hs) t.now (List.mem_map_of_mem ht)

lemma after_concat (history : List TimedCall) (timed : TimedCall) :
    after (history ++ [timed]) = perform (after history) timed := by
  simp [after]

/-- What is known of the entry after a sequence of calls. -/
lemma bounded_after (legal : Legal history) (late : ∀ t ∈ history, t.now ≤ clock) :
    ∀ p, after history = some p → Bounded clock p := by
  induction history using List.reverseRecOn generalizing clock with
  | nil =>
      intro p hp
      cases hp
  | append_singleton history timed ih =>
      intro p hp
      rw [after_concat] at hp
      have known := ih legal.front fun t ht => legal.before ht List.mem_cons_self
      refine (bounded_perform known (Nat.le_refl _) ?_ p hp).later (late timed (by simp))
      rintro delay failed hc
      exact legal.delays timed.now delay failed (by simp [← hc])

/-- Touches do not move the ready time. -/
lemma readyAt_touches {p : Pending} (touches : ∀ t ∈ more, t.call = .touch) :
    ∃ q, more.foldl perform (some p) = some q ∧ q.readyAt = p.readyAt := by
  induction more generalizing p with
  | nil => exact ⟨p, rfl, rfl⟩
  | cons t more ih =>
      have first : perform (some p) t = some (touch t.now (some p)) := by
        rw [perform, touches t List.mem_cons_self]
      obtain ⟨q, hq, same⟩ := ih (p := touch t.now (some p)) fun t ht =>
        touches t (List.mem_cons_of_mem _ ht)
      rw [List.foldl_cons, first]
      exact ⟨q, hq, same⟩

/-- Failed deferrals are counted, whatever is touched between them. -/
lemma failures_le_errors (failing : ∀ t ∈ streak, t.call.keepsFailing = true) :
    min (failures streak) (2 ^ 32 - 1) ≤ errors (streak.foldl perform entry) := by
  induction streak using List.reverseRecOn with
  | nil => exact Nat.zero_le _
  | append_singleton streak t ih =>
      have known := ih fun t ht => failing t (List.mem_append_left _ ht)
      have last := failing t (by simp)
      rw [List.foldl_append, List.foldl_cons, List.foldl_nil, failures, List.countP_append]
      change min (failures streak + _) _ ≤ _
      obtain ⟨now, call⟩ := t
      cases call with
      | touch => simpa [perform, Call.isFailure] using known
      | deferAt delay failed =>
          have : failed = true := last
          subst this
          simp only [perform, errors_deferAt_failed, saturatingSucc, List.countP_singleton,
            Call.isFailure]
          simp only [if_true]
          omega
      | completeUnlessTouched generation => cases last
      | remove => cases last

/-- The capped exponent does not cut the backoff short. -/
lemma backoff_errorRetry {n errors : Nat} (h : min (n + 1) (2 ^ 32 - 1) ≤ errors) :
    min (errorRetry * 2 ^ n) maxErrorRetry ≤ backoff errorRetry errors := by
  unfold backoff
  by_cases capped : 7 ≤ errors - 1
  · rw [Nat.min_eq_right capped]
    exact (Nat.min_le_right _ _).trans (by decide)
  · have small : n ≤ min (errors - 1) 7 := by omega
    have grown : errorRetry * 2 ^ n ≤ errorRetry * 2 ^ min (errors - 1) 7 :=
      Nat.mul_le_mul_left _ (Nat.pow_le_pow_right (by decide) small)
    exact le_min ((Nat.min_le_left _ _).trans grown) (Nat.min_le_right _ _)

/-! ## Machine arithmetic

The counters saturate in the source.  Its other operations are written here with their checks: the
shift of a `u32` and the addition of a `Duration` to an `Instant`, which fails behind the last
instant. -/

/-- `Duration::MAX`. -/
def durationMax : Duration := (2 ^ 64 - 1) * 1000000000 + 999999999

/-- `1 << shift` on a `u32`. -/
def shiftChecked (shift : Nat) : Option Nat :=
  if shift < 32 then some (2 ^ shift % 2 ^ 32) else none

/-- `Instant + Duration`. -/
def addChecked (last now : Instant) (delay : Duration) : Option Instant :=
  if now + delay ≤ last then some (now + delay) else none

/-- `defer_at` with the checks. -/
def deferAtChecked (last : Instant) (delay : Duration) (failed : Bool) (now : Instant)
    (p : Option Pending) : Option Pending := do
  let fresh ← addChecked last now delay
  let entry := p.getD { readyAt := fresh, generation := 0, consecutiveErrors := 0 }
  let errors := if failed then saturatingSucc (2 ^ 32 - 1) entry.consecutiveErrors else 0
  let delay ←
    if failed then
      (shiftChecked (min (errors - 1) 7)).map fun factor =>
        min (min (delay * factor) durationMax) maxErrorRetry
    else some delay
  let due ← addChecked last now delay
  return { entry with consecutiveErrors := errors, readyAt := max entry.readyAt due }

/-- A call with the checks. -/
def performChecked (last : Instant) (entry : Option Pending) (timed : TimedCall) :
    Option (Option Pending) :=
  match timed.call with
  | .deferAt delay failed => (deferAtChecked last delay failed timed.now entry).map some
  | _ => some (perform entry timed)

/-- The entry after a sequence of calls, unless one of them overflows. -/
def afterChecked (last : Instant) (history : List TimedCall) : Option (Option Pending) :=
  history.foldlM (performChecked last) none

lemma addChecked_eq {last : Instant} (room : now + delay ≤ last) :
    addChecked last now delay = some (now + delay) := if_pos room

/-- The shift is by less than 32, the factor is exact and the product does not saturate below the
longest retry. -/
lemma shifted_eq (delay : Duration) (errors : Nat) :
    (shiftChecked (min (errors - 1) 7)).map
        (fun factor => min (min (delay * factor) durationMax) maxErrorRetry) =
      some (backoff delay errors) := by
  have small : min (errors - 1) 7 < 32 := (Nat.min_le_right _ _).trans_lt (by decide)
  have exact : 2 ^ min (errors - 1) 7 % 2 ^ 32 = 2 ^ min (errors - 1) 7 :=
    Nat.mod_eq_of_lt (Nat.pow_lt_pow_right (by decide) small)
  have longest : min durationMax maxErrorRetry = maxErrorRetry :=
    Nat.min_eq_right (by decide)
  rw [shiftChecked, if_pos small, Option.map_some, exact, Nat.min_assoc, longest, backoff]

/-- A deferral does not overflow while the longest retry ends before the last instant. -/
lemma deferAtChecked_eq {last : Instant} (legal : delay ≤ maxErrorRetry)
    (room : now + maxErrorRetry ≤ last) :
    deferAtChecked last delay failed now entry = some (deferAt delay failed now entry) := by
  have fresh : addChecked last now delay = some (now + delay) :=
    addChecked_eq ((Nat.add_le_add_left legal _).trans room)
  unfold deferAtChecked
  rw [fresh, Option.bind_eq_bind, Option.bind_some]
  cases failed with
  | true =>
      simp only [if_true]
      rw [shifted_eq, Option.bind_some, addChecked_eq]
      · rfl
      · exact (Nat.add_le_add_left (Nat.min_le_right _ _) _).trans room
  | false =>
      simp only [Bool.false_eq_true, if_false]
      rw [Option.bind_some, fresh]
      rfl

lemma afterChecked_eq {last : Instant} (legal : Legal history)
    (room : ∀ t ∈ history, t.now + maxErrorRetry ≤ last) :
    afterChecked last history = some (after history) := by
  induction history using List.reverseRecOn with
  | nil => rfl
  | append_singleton history timed ih =>
      have front := ih legal.front fun t ht => room t (List.mem_append_left _ ht)
      rw [afterChecked] at front
      rw [afterChecked, List.foldlM_append, front, after_concat, Option.bind_eq_bind,
        Option.bind_some, List.foldlM_cons]
      simp only [List.foldlM_nil, bind_pure]
      obtain ⟨now, call⟩ := timed
      cases call with
      | deferAt delay failed =>
          have bound : delay ≤ maxErrorRetry := legal.delays now delay failed (by simp)
          have step : deferAtChecked last delay failed now (after history) =
              some (deferAt delay failed now (after history)) :=
            deferAtChecked_eq bound (room ⟨now, .deferAt delay failed⟩ (by simp))
          simp only [performChecked, perform, step, Option.map_some]
      | touch | completeUnlessTouched _ | remove => rfl

/-! ## The schedule -/

/-- While a resource is pending, touches leave its ready time alone and deferrals do not move it
earlier; after a deferral it is at most the longest retry away, and after the last of `n` failed
deferrals in a row, by the error retry, it is away for at least `2 ^ (n - 1)` times the error retry
or the longest retry.  No call overflows. -/
theorem pending_schedule (history : List TimedCall) (legal : Legal history) :
    (∀ p now, after history = some p →
      ∃ q, after (history ++ [⟨now, .touch⟩]) = some q ∧ q.readyAt = p.readyAt) ∧
    (∀ p now delay failed, after history = some p →
      ∃ q, after (history ++ [⟨now, .deferAt delay failed⟩]) = some q ∧ p.readyAt ≤ q.readyAt) ∧
    (∀ before now delay failed touches,
      history = before ++ ⟨now, .deferAt delay failed⟩ :: touches →
      (∀ t ∈ touches, t.call = .touch) →
      ∃ p, after history = some p ∧ p.readyAt ≤ now + maxErrorRetry) ∧
    (∀ before streak now, history = before ++ (streak ++ [⟨now, .deferAt errorRetry true⟩]) →
      (∀ t ∈ streak, t.call.keepsFailing = true) →
      ∃ p, after history = some p ∧
        now + min (errorRetry * 2 ^ (failures (streak ++ [⟨now, .deferAt errorRetry true⟩]) - 1))
          maxErrorRetry ≤ p.readyAt) ∧
    (∀ p, after history = some p → p.generation < 2 ^ 64 ∧ p.consecutiveErrors < 2 ^ 32) ∧
    ∀ last, (∀ t ∈ history, t.now + maxErrorRetry ≤ last) →
      afterChecked last history = some (after history) := by
  refine ⟨fun p now hp => ?_, fun p now delay failed hp => ?_, ?_, ?_, fun p hp => ?_,
    fun last room => afterChecked_eq legal room⟩
  · rw [after_concat, hp]
    exact ⟨_, rfl, rfl⟩
  · rw [after_concat, hp]
    exact ⟨_, rfl, le_readyAt_deferAt p⟩
  · rintro before now delay failed touches rfl touching
    rw [← List.singleton_append, ← List.append_assoc] at legal
    have front : Legal (before ++ [⟨now, .deferAt delay failed⟩]) := legal.front
    have late : ∀ t ∈ before ++ [⟨now, .deferAt delay failed⟩], t.now ≤ now := by
      intro t ht
      rcases List.mem_append.mp ht with ht | ht
      · exact front.before ht (List.mem_singleton.mpr rfl)
      · exact (List.mem_singleton.mp ht ▸ Nat.le_refl _)
    have due := (bounded_after front late _ (after_concat before _)).due
    obtain ⟨q, hq, same⟩ := readyAt_touches touching
    refine ⟨q, ?_, same.le.trans due⟩
    rw [after, List.foldl_append, List.foldl_cons]
    exact hq
  · rintro before streak now rfl failing
    have counted : min (failures streak) (2 ^ 32 - 1) ≤ errors (after (before ++ streak)) := by
      rw [after, List.foldl_append]
      exact failures_le_errors failing
    have number : failures (streak ++ [⟨now, .deferAt errorRetry true⟩]) = failures streak + 1 := by
      simp [failures, Call.isFailure]
    have last : after (before ++ (streak ++ [⟨now, .deferAt errorRetry true⟩])) =
        some (deferAt errorRetry true now (after (before ++ streak))) := by
      rw [← List.append_assoc, after_concat]
      rfl
    refine ⟨_, last, le_trans (Nat.add_le_add_left ?_ now) backoff_le_readyAt⟩
    rw [number, Nat.add_sub_cancel]
    refine backoff_errorRetry ?_
    unfold saturatingSucc
    omega
  · have late : ∀ t ∈ history, t.now ≤ (history.map TimedCall.now).sum := fun t ht =>
      List.single_le_sum (fun _ _ => Nat.zero_le _) _ (List.mem_map_of_mem ht)
    have bounded := bounded_after legal late p hp
    exact ⟨bounded.generation, bounded.consecutiveErrors⟩

/-- Two failed passes with an event between them. -/
def retried : List TimedCall :=
  [⟨0, .touch⟩, ⟨1, .deferAt errorRetry true⟩, ⟨2, .touch⟩, ⟨millis 300, .deferAt errorRetry true⟩]

theorem pending_schedule_retried :
    ∃ p, after retried = some p ∧ millis 300 + millis 500 ≤ p.readyAt := by
  have legal : Legal retried := by
    refine ⟨by decide, fun now delay failed h => ?_⟩
    simp only [retried, List.mem_cons, TimedCall.mk.injEq, reduceCtorEq, and_false, false_or,
      Call.deferAt.injEq, List.not_mem_nil, or_false] at h
    rcases h with ⟨_, rfl, _⟩ | ⟨_, rfl, _⟩ <;> decide
  have streak := (pending_schedule retried legal).2.2.2.1 []
    [⟨0, .touch⟩, ⟨1, .deferAt errorRetry true⟩, ⟨2, .touch⟩] (millis 300) rfl (by decide)
  obtain ⟨p, hp, due⟩ := streak
  exact ⟨p, hp, le_trans (by decide) due⟩

end Pending

end Osdns
