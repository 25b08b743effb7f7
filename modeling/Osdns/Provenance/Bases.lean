import Osdns.System.Footprint

/-!
# The base of the last writer

`Cell.base` records over which content the last writer started.  `baseOf` reads the same off the
history: the content that the first of the lease's latest uninterrupted mutations replaced.  An
external write or a mutation for another lease ends such a series, so a lease that writes again
afterwards has a new base.

`Cell.Remembers` says that the two agree.  It holds in every reachable state, whatever the order
of the calls and whichever of them fail.
-/

namespace Osdns

open Interaction

variable {r : ResourceId} {c d : Cell} {F : Faults} {i : SessionId} {m : ManagerId}

/-- The content over which `lease` started its latest series of mutations, if the latest write of
the history (newest first) is its own. -/
def baseOf (lease : LeaseId) : List Event → Option FakeState
  | [] => none
  | .captured _ _ :: log => baseOf lease log
  | .external _ :: _ => none
  | .mutated cause old _ _ :: log =>
      if cause.lease = lease then some ((baseOf lease log).getD old.state) else none

/-- What the cell records of its last writer is what its history says. -/
def Cell.Remembers (c : Cell) : Prop :=
  ∀ K, baseOf K c.log = if c.writer = .engine K then some c.base else none

/-- What one call adds to the record of what happened. -/
structure Chronicle (c d : Cell) : Prop where
  removals : ∀ entry ∈ c.removals, entry ∈ d.removals
  native : (d.writer = c.writer ∧ d.base = c.base ∧
      (d.log = c.log ∨ ∃ lease p, d.log = .captured lease p :: c.log)) ∨
    ∃ cause old new now, d.writer = .engine cause.lease ∧
      d.base = (if c.writer = .engine cause.lease then c.base else old.state) ∧
      d.log = .mutated cause old new now :: c.log

namespace Chronicle

lemma same (hremovals : d.removals = c.removals) (hwriter : d.writer = c.writer)
    (hbase : d.base = c.base) (hlog : d.log = c.log) : Chronicle c d :=
  ⟨fun _ h => hremovals ▸ h, .inl ⟨hwriter, hbase, .inl hlog⟩⟩

lemma mutate {cause : Cause} {old new : FakeState} {now : Instant} :
    Chronicle c (c.mutate cause old new now) :=
  ⟨fun _ h => h, .inr ⟨cause, ⟨old, c.generation⟩, ⟨new, c.generation + 1⟩, now, rfl, rfl, rfl⟩⟩

lemma mutated {attempt : MutationAttempt FakeSnapshotData} {cause : Cause}
    {expected : FakeSnapshotData} {now : Instant}
    (h : (attempt.produced = none ∧ d = c) ∨ ∃ old new, expected = ⟨old, c.generation⟩ ∧
      attempt.produced = some (c.produced r new) ∧ d = c.mutate cause old new now) :
    Chronicle c d := by
  rcases h with ⟨-, rfl⟩ | ⟨old, new, -, -, rfl⟩
  · exact .same rfl rfl rfl rfl
  · exact mutate

/-- A call keeps history and record in agreement. -/
lemma remembers (h : Chronicle c d) (hc : c.Remembers) : d.Remembers := by
  intro K
  rcases h.native with ⟨hw, hb, hlog | ⟨lease, p, hlog⟩⟩ | ⟨cause, old, new, now, hw, hb, hlog⟩
  · rw [hlog, hw, hb, hc K]
  · rw [hlog, hw, hb]
    exact hc K
  · rw [hlog, hw, hb, baseOf]
    by_cases hK : cause.lease = K
    · subst hK
      rw [if_pos rfl, if_pos rfl, hc cause.lease]
      split <;> rfl
    · rw [if_neg hK, if_neg fun he => hK (Writer.engine.inj he)]

end Chronicle

lemma Cell.chronicle_engine {o : EngineOp FakeSnapshotData FakeIdentity}
    {answer : EngineRet FakeSnapshotData FakeIdentity o} {ctx : Context} {fate : Fate}
    (hx : c.execEngine r ctx fate o = some (answer, d)) : Chronicle c d := by
  cases o with
  | fire | journalRecords | newLeaseId => cases hx
  | resourceStatus | readback | capture =>
      cases fate <;> simp only [Cell.execEngine, Option.some.injEq, Prod.mk.injEq] at hx <;>
        obtain ⟨-, rfl⟩ := hx <;> exact .same rfl rfl rfl rfl
  | observe resource =>
      cases fate <;> cases hs : c.snapshot r <;>
        simp only [Cell.execEngine, hs, Option.some.injEq, Prod.mk.injEq] at hx <;>
        obtain ⟨-, rfl⟩ := hx
      case proceed.some p => exact ⟨fun _ h => h, .inl ⟨rfl, rfl, .inr ⟨ctx.session, p.data, rfl⟩⟩⟩
      all_goals exact .same rfl rfl rfl rfl
  | applyGuarded cause resource expected plan =>
      simp only [Cell.execEngine, Option.some.injEq] at hx
      have hcases := c.applyGuarded_cases (r := r) cause ctx.now fate expected plan
      rw [hx] at hcases
      exact .mutated hcases
  | restoreGuarded cause resource expected target =>
      simp only [Cell.execEngine, Option.some.injEq] at hx
      have hcases := c.restoreGuarded_cases (r := r) cause ctx.now fate expected target
      rw [hx] at hcases
      exact .mutated hcases
  | apply cause resource plan =>
      cases fate <;> cases hs : c.state <;>
        simp only [Cell.execEngine, Cell.applyUnguarded, hs, Option.some.injEq,
          Prod.mk.injEq] at hx <;>
        obtain ⟨-, rfl⟩ := hx
      case proceed.some | failAfter.some => exact .mutate
      all_goals exact .same rfl rfl rfl rfl
  | restore cause resource snapshot =>
      simp only [Cell.execEngine, Cell.restoreUnguarded, Option.some.injEq] at hx
      split at hx
      · obtain ⟨-, rfl⟩ := Prod.mk.inj hx
        exact .same rfl rfl rfl rfl
      · obtain ⟨-, rfl⟩ := Prod.mk.inj hx
        exact .same rfl rfl rfl rfl
      · split at hx
        · obtain ⟨-, rfl⟩ := Prod.mk.inj hx
          exact .same rfl rfl rfl rfl
        · split at hx <;> obtain ⟨-, rfl⟩ := Prod.mk.inj hx
          · exact .same rfl rfl rfl rfl
          · exact .same rfl rfl rfl rfl
          · exact .mutate
  | journalWrite record =>
      cases fate <;>
        simp only [Cell.execEngine, Cell.journalWrite, Option.some.injEq, Prod.mk.injEq] at hx <;>
        obtain ⟨-, rfl⟩ := hx <;> exact .same rfl rfl rfl rfl
  | journalRemove K resource removal =>
      cases fate <;>
        simp only [Cell.execEngine, Cell.journalRemove, Option.some.injEq, Prod.mk.injEq] at hx <;>
        obtain ⟨-, rfl⟩ := hx <;>
        exact ⟨fun _ h => List.mem_cons_of_mem _ h, .inl ⟨rfl, rfl, .inl rfl⟩⟩
  | liveGet ref =>
      cases hl : c.live ref.lease with
      | none => simp [Cell.execEngine, hl] at hx
      | some live =>
          simp only [Cell.execEngine, hl, Option.map_some, Option.some.injEq, Prod.mk.injEq] at hx
          obtain ⟨-, rfl⟩ := hx
          exact .same rfl rfl rfl rfl
  | liveSet ref live =>
      simp only [Cell.execEngine, Option.some.injEq, Prod.mk.injEq] at hx
      obtain ⟨-, rfl⟩ := hx
      exact .same rfl rfl rfl rfl

lemma Cell.chronicle {o : ManagerOp FakeSnapshotData FakeIdentity}
    {answer : ManagerRet FakeSnapshotData FakeIdentity o} {ctx : Context} {fate : Fate}
    (hx : c.exec r ctx fate o = some (answer, d)) : Chronicle c d := by
  cases o with
  | engine o => exact Cell.chronicle_engine hx
  | resolveResources | tokenLock | tokenUnlock | gateLock | gateUnlock => cases hx
  | sleep | enforceEnsure | enforceRelease | rescanEnforce => cases hx
  | acquire resource | tryAcquire resource =>
      cases fate <;> cases hl : c.lock <;>
        simp only [Cell.exec, hl, Option.some.injEq, Prod.mk.injEq] at hx <;>
        obtain ⟨-, rfl⟩ := hx <;> exact .same rfl rfl rfl rfl
  | tokenGet resource =>
      cases hk : c.token ctx.manager <;>
        simp only [Cell.exec, hk, Option.some.injEq, Prod.mk.injEq] at hx <;>
        obtain ⟨-, rfl⟩ := hx <;> exact .same rfl rfl rfl rfl
  | _ =>
      simp only [Cell.exec, Option.some.injEq, Prod.mk.injEq] at hx
      obtain ⟨-, rfl⟩ := hx
      exact .same rfl rfl rfl rfl

lemma World.chronicle {w w' : World} {o : ManagerOp FakeSnapshotData FakeIdentity}
    {answer : ManagerRet FakeSnapshotData FakeIdentity o} (h : World.handler F i m o w answer w')
    (r : ResourceId) : Chronicle (w.cells r) (w'.cells r) := by
  obtain ⟨fate, -, hx⟩ := h
  rcases World.exec_cells hx r with ⟨-, hcell⟩ | ⟨-, hcell⟩
  · exact Cell.chronicle hcell
  · rw [hcell]
    exact .same rfl rfl rfl rfl

lemma Cell.Remembers.external (h : c.Remembers) (hx : Cell.External c d) : d.Remembers := by
  cases hx with
  | setAmbiguous ambiguous => exact h
  | write | replace | remove => exact fun K => rfl

lemma World.Environment.remembers {w w' : World} (h : World.Environment w w')
    (hr : (w.cells r).Remembers) : (w'.cells r).Remembers := by
  cases h with
  | retopology | tick => exact hr
  | notify m' r' =>
      by_cases he : r = r'
      · subst he
        simp only [World.setCell, Function.update_self]
        exact hr
      · simpa [World.setCell, he] using hr
  | external r' c hc =>
      by_cases he : r = r'
      · subst he
        simpa [World.setCell] using hr.external hc
      · simpa [World.setCell, he] using hr

/-- What happens besides the sessions adds at most an external write to a history. -/
lemma World.Environment.log {w w' : World} (h : World.Environment w w') (r : ResourceId) :
    (w'.cells r).log = (w.cells r).log ∨
      ∃ new, (w'.cells r).log = .external new :: (w.cells r).log := by
  cases h with
  | retopology | tick => exact .inl rfl
  | notify m' r' =>
      by_cases hr : r = r'
      · subst hr
        exact .inl (by simp [World.setCell])
      · exact .inl (by simp [World.setCell, hr])
  | external r' c hc =>
      by_cases hr : r = r'
      · subst hr
        simp only [World.setCell, Function.update_self]
        generalize w.cells r = d at hc
        cases hc with
        | setAmbiguous ambiguous => exact .inl rfl
        | write | replace | remove => exact .inr ⟨_, rfl⟩
      · exact .inl (by simp [World.setCell, hr])

namespace System

variable {S : Setup} {s t : System}

lemma Step.remembers (hst : Step S s t) (h : (s.world.cells r).Remembers) :
    (t.world.cells r).Remembers := by
  cases hst with
  | start | startOn | finish => exact h
  | call i session o k answer w running program claimed answered =>
      exact (World.chronicle answered r).remembers h
  | environment w henv => exact henv.remembers h
  | crash m => exact h

/-- In every reachable state the recorded base is the one the history shows. -/
theorem Reachable.remembers (h : Reachable S s) (r : ResourceId) :
    (s.world.cells r).Remembers := by
  induction h with
  | init h =>
      obtain ⟨state, generation, incarnation, ambiguous, hcell⟩ := h.cells r
      rw [hcell]
      exact fun K => rfl
  | step _ hst ih => exact hst.remembers ih

end System

end Osdns
