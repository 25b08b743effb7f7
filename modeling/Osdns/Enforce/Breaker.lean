import Mathlib.Algebra.Order.BigOperators.Group.List
import Mathlib.Algebra.Order.Group.Nat
import Mathlib.Data.List.Induction
import Osdns.Framework.Spacing
import Osdns.Model.Schedule

/-!
# The circuit breaker over a sequence of calls

`breaker_gate` of `reconciliation.rs`, called again and again on one resource.  Rebases are refused
in two ways: the breaker is open, or the window holds as many admissions as the threshold allows and
the breaker opens now.  Whatever the times of the calls are, admissions come in bursts that are
spread over at least the cooldown.
-/

namespace Osdns

namespace BreakerState

open Spacing

/-! ## One call -/

/-- The attempts that `breaker_gate` counts: none after the breaker was open. -/
def recent (now : Instant) (state : BreakerState) : List Instant :=
  match state.openUntil with
  | some _ => []
  | none => state.attempts.dropWhile fun oldest => breakerWindow < now - oldest

/-- The breaker is not open at this time. -/
def Passed (now : Instant) (state : BreakerState) : Prop :=
  ∀ openUntil, state.openUntil = some openUntil → openUntil ≤ now

/-- What a call of `breaker_gate` can do. -/
inductive Gates (now : Instant) (state : BreakerState) : Option Duration × BreakerState → Prop
  | waiting (openUntil : Instant) (isOpen : state.openUntil = some openUntil)
      (early : now < openUntil) : Gates now state (some (openUntil - now), state)
  | opening (passed : Passed now state) (full : breakerThreshold ≤ (state.recent now).length) :
      Gates now state (some breakerCooldown, ⟨[], some (now + breakerCooldown)⟩)
  | admitting (passed : Passed now state) (room : (state.recent now).length < breakerThreshold) :
      Gates now state (none, ⟨state.recent now ++ [now], none⟩)

lemma gates_gate (now : Instant) (state : BreakerState) : Gates now state (state.gate now) := by
  -- Behind the open check only the attempts that count are looked at.
  have behind (passed : Passed now state) : Gates now state
      (if breakerThreshold ≤ (state.recent now).length then
        (some breakerCooldown, { attempts := [], openUntil := some (now + breakerCooldown) })
      else (none, { attempts := state.recent now ++ [now], openUntil := none })) := by
    split
    · next full => exact .opening passed full
    · next room => exact .admitting passed (by omega)
  obtain ⟨attempts, openUntil⟩ := state
  cases openUntil with
  | none => exact behind fun _ h => by cases h
  | some openUntil =>
      by_cases early : now < openUntil
      · rw [show gate now ⟨attempts, some openUntil⟩ =
          (some (openUntil - now), ⟨attempts, some openUntil⟩) from if_pos early]
        exact .waiting openUntil rfl early
      · rw [show gate now ⟨attempts, some openUntil⟩ = BreakerState.admit now [] from if_neg early]
        exact behind fun u h => Option.some.inj h ▸ not_lt.mp early

/-- A breaker that is closed, or was open until now, admits when nothing counts. -/
lemma gate_of_expired {now openUntil : Instant} {state : BreakerState}
    (opened : state.openUntil = some openUntil) (expired : openUntil ≤ now) :
    (state.gate now).1 = none := by
  have counted : state.recent now = [] := by simp [recent, opened]
  have positive : 0 < breakerThreshold := by decide
  cases hg : state.gate now with
  | mk answer after =>
      have outcome := gates_gate now state
      rw [hg] at outcome
      cases outcome with
      | waiting u isOpen early =>
          rw [opened] at isOpen
          cases isOpen
          exact absurd early (not_lt.mpr expired)
      | opening _ full =>
          rw [counted, List.length_nil] at full
          omega
      | admitting _ _ => rfl

/-! ## A sequence of calls -/

/-- The state that a sequence of calls leaves, and the times of the calls that it admitted. -/
structure Gated where
  state : BreakerState := {}
  admitted : List Instant := []

/-- A call of `breaker_gate`. -/
def Gated.call (run : Gated) (now : Instant) : Gated :=
  let (answer, state) := run.state.gate now
  { state, admitted := if answer.isNone then run.admitted ++ [now] else run.admitted }

/-- The calls at the given times, on a resource without an entry. -/
def calls (times : List Instant) : Gated := times.foldl Gated.call {}

/-- What is known of the breaker after a call at `clock`.  Admissions that are no longer among the
attempts are a cooldown away from every call that passes the open check. -/
structure Watched (clock : Instant) (run : Gated) : Prop where
  forgotten : ∃ old, run.admitted = old ++ run.state.attempts ∧
    ∀ a ∈ old, ∀ later, clock ≤ later → Passed later run.state → a + breakerCooldown ≤ later
  past : ∀ a ∈ run.admitted, a ≤ clock
  sorted : run.state.attempts.Pairwise (· ≤ ·)
  bounded : run.state.attempts.length ≤ breakerThreshold
  opened : ∀ openUntil, run.state.openUntil = some openUntil →
    run.state.attempts = [] ∧ openUntil ≤ clock + breakerCooldown
  spaced : Spaced breakerThreshold (fun first last => first + breakerCooldown ≤ last) run.admitted

lemma watched_start (clock : Instant) : Watched clock {} where
  forgotten := ⟨[], rfl, fun _ ha => by cases ha⟩
  past := fun _ ha => by cases ha
  sorted := List.Pairwise.nil
  bounded := Nat.zero_le _
  opened := fun _ h => by cases h
  spaced := spaced_nil

variable {clock now : Instant} {run : Gated}

/-- Time passes. -/
lemma Watched.later (h : Watched clock run) (tick : clock ≤ now) : Watched now run := by
  obtain ⟨old, split, far⟩ := h.forgotten
  exact { h with
    forgotten := ⟨old, split, fun a ha later hl => far a ha later (tick.trans hl)⟩
    past := fun a ha => (h.past a ha).trans tick
    opened := fun u hu =>
      ⟨(h.opened u hu).1, (h.opened u hu).2.trans (Nat.add_le_add_right tick _)⟩ }

/-- The attempts that count are the last ones; the others are a cooldown away. -/
lemma Watched.recent (h : Watched clock run) (tick : clock ≤ now) (passed : Passed now run.state) :
    ∃ old, run.admitted = old ++ run.state.recent now ∧ ∀ a ∈ old, a + breakerCooldown ≤ now := by
  obtain ⟨old, split, far⟩ := h.forgotten
  cases hopen : run.state.openUntil with
  | some openUntil =>
      rw [(h.opened openUntil hopen).1] at split
      have counted : run.state.recent now = [] := by simp [BreakerState.recent, hopen]
      exact ⟨old, by rw [counted, split], fun a ha => far a ha now tick passed⟩
  | none =>
      obtain ⟨evicted, parts, outside⟩ := dropWhile_split
        (fun oldest => decide (breakerWindow < now - oldest)) run.state.attempts
      have counted : run.state.recent now =
          run.state.attempts.dropWhile fun oldest => breakerWindow < now - oldest := by
        simp [BreakerState.recent, hopen]
      refine ⟨old ++ evicted, by rw [counted, List.append_assoc, ← parts, split], fun a ha => ?_⟩
      rcases List.mem_append.mp ha with ha | ha
      · exact far a ha now tick passed
      · have window : breakerWindow < now - a := of_decide_eq_true (outside a ha)
        calc
          a + breakerCooldown ≤ a + breakerWindow := Nat.add_le_add_left (by decide) a
          _ ≤ now := (Nat.add_lt_of_lt_sub' window).le

lemma Watched.sorted_recent (h : Watched clock run) : (run.state.recent now).Pairwise (· ≤ ·) := by
  unfold BreakerState.recent
  split
  · exact List.Pairwise.nil
  · exact h.sorted.sublist (List.dropWhile_sublist _)

/-- A call keeps what is known. -/
lemma Watched.call (h : Watched clock run) (tick : clock ≤ now) : Watched now (run.call now) := by
  have past := (h.later tick).past
  have outcome := gates_gate now run.state
  cases hg : run.state.gate now with
  | mk answer after =>
      have step : run.call now =
          ⟨after, if answer.isNone then run.admitted ++ [now] else run.admitted⟩ := by
        simp only [Gated.call, hg]
      rw [hg] at outcome
      rw [step]
      cases outcome with
      | waiting openUntil isOpen early => exact h.later tick
      | opening passed full =>
          -- The admissions so far lie before the opening, later calls a cooldown behind it.
          refine ⟨⟨run.admitted, (List.append_nil _).symm, fun a ha later _ hp => ?_⟩, past,
            List.Pairwise.nil, Nat.zero_le _, fun u hu => ?_, h.spaced⟩
          · exact (Nat.add_le_add_right (past a ha) _).trans (hp _ rfl)
          · cases hu
            exact ⟨rfl, Nat.le_refl _⟩
      | admitting passed room =>
          obtain ⟨old, split, far⟩ := h.recent tick passed
          refine ⟨⟨old, by simp [split], fun a ha later hl _ => (far a ha).trans hl⟩, ?_, ?_, ?_,
            (fun _ hu => by cases hu), ?_⟩
          · intro a ha
            rcases List.mem_append.mp ha with ha | ha
            · exact past a ha
            · exact (List.mem_singleton.mp ha).le
          · refine List.pairwise_append.mpr ⟨h.sorted_recent, List.pairwise_singleton _ _, ?_⟩
            intro a ha b hb
            rw [List.mem_singleton.mp hb]
            exact past a (split ▸ List.mem_append_right _ ha)
          · simp only [List.length_append, List.length_singleton]
            omega
          · refine h.spaced.concat fun before first between hl hk => ?_
            exact far first (mem_left_of_append (split.symm.trans hl) (by omega))

/-- What is known after the last of a sequence of calls in order of time. -/
lemma watched_calls {times : List Instant} (sorted : times.Pairwise (· ≤ ·))
    (late : ∀ time ∈ times, time ≤ clock) : Watched clock (calls times) := by
  induction times using List.reverseRecOn generalizing clock with
  | nil => exact watched_start clock
  | append_singleton times time ih =>
      obtain ⟨earlier, _, before⟩ := List.pairwise_append.mp sorted
      have last : calls (times ++ [time]) = (calls times).call time := by simp [calls]
      have known := ih earlier fun t ht => before t ht time List.mem_cons_self
      rw [last]
      exact (known.call (Nat.le_refl time)).later (late time (by simp))

/-- A refused call is told a time to wait that is positive, at most the cooldown, and enough. -/
lemma Watched.refused (h : Watched now run) {wait : Duration} {after : BreakerState}
    (gated : run.state.gate now = (some wait, after)) :
    0 < wait ∧ wait ≤ breakerCooldown ∧
      ∀ later, now + wait ≤ later → (after.gate later).1 = none := by
  have outcome := gates_gate now run.state
  rw [gated] at outcome
  cases outcome with
  | waiting openUntil isOpen early =>
      have reached : now + (openUntil - now) = openUntil := Nat.add_sub_cancel' early.le
      refine ⟨Nat.sub_pos_of_lt early, ?_, fun later hl => ?_⟩
      · exact Nat.sub_le_iff_le_add'.mpr (h.opened openUntil isOpen).2
      · exact gate_of_expired isOpen (reached ▸ hl)
  | opening passed full => exact ⟨by decide, Nat.le_refl _, fun later hl => gate_of_expired rfl hl⟩

/-! ## The breaker's promise -/

/-- Any `breakerThreshold + 1` calls that were admitted one after another take at least the
cooldown; the stored attempts are in order and no more than the threshold; and a refused call is
told a time to wait that is positive, at most the cooldown, and enough. -/
theorem breaker_window (times : List Instant) (sorted : times.Pairwise (· ≤ ·)) :
    (∀ before first between last after,
      (calls times).admitted = before ++ first :: (between ++ last :: after) →
      (first :: (between ++ [last])).length = breakerThreshold + 1 →
      first + breakerCooldown ≤ last) ∧
    (calls times).state.attempts.Pairwise (· ≤ ·) ∧
    (calls times).state.attempts.length ≤ breakerThreshold ∧
    ∀ now wait after, (∀ time ∈ times, time ≤ now) →
      (calls times).state.gate now = (some wait, after) →
      0 < wait ∧ wait ≤ breakerCooldown ∧
        ∀ later, now + wait ≤ later → (after.gate later).1 = none := by
  have known : Watched times.sum (calls times) :=
    watched_calls sorted fun time ht => List.single_le_sum (fun _ _ => Nat.zero_le _) time ht
  refine ⟨fun before first between last after hl hk => ?_, known.sorted, known.bounded,
    fun now wait after late gated => (watched_calls sorted late).refused gated⟩
  refine known.spaced before first between last after hl ?_
  simpa using hk

/-- The breaker opens at the seventh call of a burst; a nanosecond later the time to wait is almost
the cooldown, and is enough. -/
theorem breaker_window_burst :
    ((calls [0, 1, 2, 3, 4, 5, 6]).state.gate 7).1 = some (breakerCooldown - 1) ∧
      ∀ later, 7 + (breakerCooldown - 1) ≤ later →
        ((calls [0, 1, 2, 3, 4, 5, 6]).state.gate later).1 = none := by
  have waits : (calls [0, 1, 2, 3, 4, 5, 6]).state.gate 7 =
      (some (breakerCooldown - 1), (calls [0, 1, 2, 3, 4, 5, 6]).state) := by decide
  have promise := (breaker_window [0, 1, 2, 3, 4, 5, 6] (by decide)).2.2.2 7 _ _ (by decide) waits
  exact ⟨by rw [waits], promise.2.2⟩

end BreakerState

end Osdns
