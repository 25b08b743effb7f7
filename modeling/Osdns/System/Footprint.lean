import Osdns.Provenance.Overwrite

/-!
# What one call changes

A call changes the journal, the lock and the live records of a resource only when it says so: the
journal by writing or removing a record of the resource, the lock by acquiring or releasing it,
and the live records by setting one.
-/

namespace Osdns

open Interaction

variable {r : ResourceId} {c d : Cell} {F : Faults} {i : SessionId} {m : ManagerId}
variable {o : ManagerOp FakeSnapshotData FakeIdentity}
variable {answer : ManagerRet FakeSnapshotData FakeIdentity o}

/-- How the journal, the lock and the live records of a resource may change in one call. -/
structure Footprint (r : ResourceId) (o : ManagerOp FakeSnapshotData FakeIdentity) (c d : Cell) :
    Prop where
  journal : (∀ record, o = .engine (.journalWrite record) → record.resource ≠ r) →
    (∀ K resource removal, o = .engine (.journalRemove K resource removal) → resource ≠ r) →
      d.journal = c.journal
  lock : o ≠ .acquire r → o ≠ .tryAcquire r → o ≠ .release r → d.lock = c.lock
  live : (∀ ref live, o = .engine (.liveSet ref live) → ref.resource ≠ r) → d.live = c.live

lemma Footprint.same (hjournal : d.journal = c.journal) (hlock : d.lock = c.lock)
    (hlive : d.live = c.live) : Footprint r o c d :=
  ⟨fun _ _ => hjournal, fun _ _ _ => hlock, fun _ => hlive⟩

/-- A guarded mutation changes the native state only. -/
lemma Footprint.mutated {attempt : MutationAttempt FakeSnapshotData} {cause : Cause}
    {expected : FakeSnapshotData} {now : Instant}
    (h : (attempt.produced = none ∧ d = c) ∨ ∃ old new, expected = ⟨old, c.generation⟩ ∧
      attempt.produced = some (c.produced r new) ∧ d = c.mutate cause old new now) :
    Footprint r o c d := by
  rcases h with ⟨-, rfl⟩ | ⟨old, new, -, -, rfl⟩
  · exact .same rfl rfl rfl
  · exact .same rfl rfl rfl

lemma Cell.footprint_engine {o : EngineOp FakeSnapshotData FakeIdentity}
    {answer : EngineRet FakeSnapshotData FakeIdentity o} {ctx : Context} {fate : Fate}
    (ht : o.target = some r) (hx : c.execEngine r ctx fate o = some (answer, d)) :
    Footprint r (.engine o) c d := by
  cases o with
  | fire | journalRecords | newLeaseId => cases ht
  | resourceStatus | readback | capture =>
      cases fate <;> simp only [Cell.execEngine, Option.some.injEq, Prod.mk.injEq] at hx <;>
        obtain ⟨-, rfl⟩ := hx <;> exact .same rfl rfl rfl
  | observe resource =>
      cases fate <;> cases hs : c.snapshot r <;>
        simp only [Cell.execEngine, hs, Option.some.injEq, Prod.mk.injEq] at hx <;>
        obtain ⟨-, rfl⟩ := hx <;> exact .same rfl rfl rfl
  | applyGuarded cause resource expected plan =>
      obtain rfl : resource = r := Option.some.inj ht
      simp only [Cell.execEngine, Option.some.injEq] at hx
      have hcases := c.applyGuarded_cases (r := resource) cause ctx.now fate expected plan
      rw [hx] at hcases
      exact .mutated hcases
  | restoreGuarded cause resource expected target =>
      obtain rfl : resource = r := Option.some.inj ht
      simp only [Cell.execEngine, Option.some.injEq] at hx
      have hcases := c.restoreGuarded_cases (r := resource) cause ctx.now fate expected target
      rw [hx] at hcases
      exact .mutated hcases
  | apply cause resource plan =>
      cases fate <;> cases hs : c.state <;>
        simp only [Cell.execEngine, Cell.applyUnguarded, hs, Option.some.injEq,
          Prod.mk.injEq] at hx <;>
        obtain ⟨-, rfl⟩ := hx <;> exact .same rfl rfl rfl
  | restore cause resource snapshot =>
      simp only [Cell.execEngine, Cell.restoreUnguarded, Option.some.injEq] at hx
      split at hx
      · obtain ⟨-, rfl⟩ := Prod.mk.inj hx
        exact .same rfl rfl rfl
      · obtain ⟨-, rfl⟩ := Prod.mk.inj hx
        exact .same rfl rfl rfl
      · split at hx
        · obtain ⟨-, rfl⟩ := Prod.mk.inj hx
          exact .same rfl rfl rfl
        · split at hx <;> obtain ⟨-, rfl⟩ := Prod.mk.inj hx <;> exact .same rfl rfl rfl
  | journalWrite record =>
      obtain rfl : record.resource = r := Option.some.inj ht
      refine ⟨fun h _ => absurd rfl (h record rfl), fun _ _ _ => ?_, fun _ => ?_⟩ <;>
        cases fate <;>
        simp only [Cell.execEngine, Cell.journalWrite, Option.some.injEq, Prod.mk.injEq] at hx <;>
        obtain ⟨-, rfl⟩ := hx <;> rfl
  | journalRemove K resource removal =>
      obtain rfl : resource = r := Option.some.inj ht
      refine ⟨fun _ h => absurd rfl (h K resource removal rfl), fun _ _ _ => ?_, fun _ => ?_⟩ <;>
        cases fate <;>
        simp only [Cell.execEngine, Cell.journalRemove, Option.some.injEq, Prod.mk.injEq] at hx <;>
        obtain ⟨-, rfl⟩ := hx <;> rfl
  | liveGet ref =>
      cases hl : c.live ref.lease with
      | none => simp [Cell.execEngine, hl] at hx
      | some live =>
          simp only [Cell.execEngine, hl, Option.map_some, Option.some.injEq, Prod.mk.injEq] at hx
          obtain ⟨-, rfl⟩ := hx
          exact .same rfl rfl rfl
  | liveSet ref live =>
      simp only [Cell.execEngine, Option.some.injEq, Prod.mk.injEq] at hx
      obtain ⟨-, rfl⟩ := hx
      exact ⟨fun _ _ => rfl, fun _ _ _ => rfl, fun h => absurd (Option.some.inj ht) (h ref live rfl)⟩

lemma Cell.footprint {ctx : Context} {fate : Fate} (ht : o.target = some r)
    (hx : c.exec r ctx fate o = some (answer, d)) : Footprint r o c d := by
  cases o with
  | engine o => exact Cell.footprint_engine ht hx
  | resolveResources | tokenLock | tokenUnlock | gateLock | gateUnlock => cases ht
  | sleep | enforceEnsure | enforceRelease | rescanEnforce => cases ht
  | acquire resource =>
      obtain rfl : resource = r := Option.some.inj ht
      refine ⟨fun _ _ => ?_, fun h => absurd rfl h, fun _ => ?_⟩ <;>
        cases fate <;> cases hl : c.lock <;>
        simp only [Cell.exec, hl, Option.some.injEq, Prod.mk.injEq] at hx <;>
        obtain ⟨-, rfl⟩ := hx <;> rfl
  | tryAcquire resource =>
      obtain rfl : resource = r := Option.some.inj ht
      refine ⟨fun _ _ => ?_, fun _ h => absurd rfl h, fun _ => ?_⟩ <;>
        cases fate <;> cases hl : c.lock <;>
        simp only [Cell.exec, hl, Option.some.injEq, Prod.mk.injEq] at hx <;>
        obtain ⟨-, rfl⟩ := hx <;> rfl
  | release resource =>
      obtain rfl : resource = r := Option.some.inj ht
      simp only [Cell.exec, Option.some.injEq, Prod.mk.injEq] at hx
      obtain ⟨-, rfl⟩ := hx
      exact ⟨fun _ _ => rfl, fun _ _ h => absurd rfl h, fun _ => rfl⟩
  | tokenGet resource =>
      cases hk : c.token ctx.manager <;>
        simp only [Cell.exec, hk, Option.some.injEq, Prod.mk.injEq] at hx <;>
        obtain ⟨-, rfl⟩ := hx <;> exact .same rfl rfl rfl
  | _ =>
      simp only [Cell.exec, Option.some.injEq, Prod.mk.injEq] at hx
      obtain ⟨-, rfl⟩ := hx
      exact .same rfl rfl rfl

namespace World

variable {w w' : World}

/-- A call on a resource is executed on its cell; of other cells it can only change what is
pending. -/
lemma exec_cells {fate : Fate} (hx : w.exec i m fate o = some (answer, w')) (r : ResourceId) :
    (o.target = some r ∧ (w.cells r).exec r (w.context i m) fate o = some (answer, w'.cells r)) ∨
      (o.target ≠ some r ∧ w'.cells r = { w.cells r with pending := (w'.cells r).pending }) := by
  unfold World.exec at hx
  cases ht : o.target with
  | none =>
      refine .inr ⟨by simp, ?_⟩
      simp only [ht] at hx
      cases o with
      | engine o =>
          cases o with
          | fire | journalRecords | newLeaseId =>
              cases fate <;> simp only [World.execGlobal, Option.some.injEq, Prod.mk.injEq] at hx <;>
                obtain ⟨-, rfl⟩ := hx <;> rfl
          | _ => cases ht
      | resolveResources =>
          cases fate <;> simp only [World.execGlobal, Option.some.injEq, Prod.mk.injEq] at hx <;>
            obtain ⟨-, rfl⟩ := hx <;> rfl
      | tokenLock token =>
          cases hk : w.tokens m token with
          | some holder => simp [World.execGlobal, hk] at hx
          | none =>
              simp only [World.execGlobal, hk, Option.some.injEq, Prod.mk.injEq] at hx
              obtain ⟨-, rfl⟩ := hx
              rfl
      | gateLock =>
          cases hk : w.gate m with
          | some holder => simp [World.execGlobal, hk] at hx
          | none =>
              simp only [World.execGlobal, hk, Option.some.injEq, Prod.mk.injEq] at hx
              obtain ⟨-, rfl⟩ := hx
              rfl
      | tokenUnlock | gateUnlock | sleep | enforceEnsure | enforceRelease =>
          simp only [World.execGlobal, Option.some.injEq, Prod.mk.injEq] at hx
          obtain ⟨-, rfl⟩ := hx
          rfl
      | rescanEnforce =>
          simp only [World.execGlobal, Option.some.injEq, Prod.mk.injEq] at hx
          obtain ⟨-, rfl⟩ := hx
          by_cases hfeed : (w.enforce m).feed = true
          · simp only [if_pos hfeed, World.touchActive]
            split <;> rfl
          · simp only [if_neg hfeed]
      | _ => cases ht
  | some r' =>
      simp only [ht, Option.map_eq_some_iff, Prod.mk.injEq] at hx
      obtain ⟨⟨answer', c⟩, hexec, rfl, rfl⟩ := hx
      have hcells : ((w.setCell r' c).account o).cells = Function.update w.cells r' c := by
        cases o with
        | engine o => cases o <;> rfl
        | _ => rfl
      rw [hcells]
      by_cases hr : r = r'
      · subst hr
        exact .inl ⟨rfl, by rwa [Function.update_self]⟩
      · exact .inr ⟨fun h => hr (Option.some.inj h).symm, by rw [Function.update_of_ne hr]⟩

lemma handler_footprint (h : World.handler F i m o w answer w') (r : ResourceId) :
    Footprint r o (w.cells r) (w'.cells r) := by
  obtain ⟨fate, -, hx⟩ := h
  rcases exec_cells hx r with ⟨ht, hcell⟩ | ⟨-, hcell⟩
  · exact Cell.footprint ht hcell
  · rw [hcell]
    exact .same rfl rfl rfl

/-- What happens besides the sessions leaves journals, locks and live records alone. -/
lemma Environment.cells (h : Environment w w') (r : ResourceId) :
    (w'.cells r).journal = (w.cells r).journal ∧ (w'.cells r).lock = (w.cells r).lock ∧
      (w'.cells r).live = (w.cells r).live := by
  have hset : ∀ (r' : ResourceId) (c : Cell), c.journal = (w.cells r').journal →
      c.lock = (w.cells r').lock → c.live = (w.cells r').live →
        ((w.setCell r' c).cells r).journal = (w.cells r).journal ∧
          ((w.setCell r' c).cells r).lock = (w.cells r).lock ∧
            ((w.setCell r' c).cells r).live = (w.cells r).live := by
    intro r' c hjournal hlock hlive
    by_cases hr : r = r'
    · subst hr
      simp only [setCell, Function.update_self]
      exact ⟨hjournal, hlock, hlive⟩
    · have hsame : (w.setCell r' c).cells r = w.cells r := Function.update_of_ne hr _ _
      rw [hsame]
      exact ⟨rfl, rfl, rfl⟩
  cases h with
  | retopology | tick => exact ⟨rfl, rfl, rfl⟩
  | notify manager r' => exact hset r' _ rfl rfl rfl
  | external r' c hext =>
      refine hset r' c ?_ ?_ ?_ <;> generalize w.cells r' = d at hext <;> cases hext <;> rfl

/-- A record stays absent until it is written. -/
lemma record_absent {K : LeaseId} (h : World.handler F i m o w answer w')
    (hn : (w.cells r).record K = none) : (w'.cells r).record K = none ∨
      ∃ record, o = .engine (.journalWrite record) ∧ record.resource = r ∧ record.leaseId = K := by
  obtain ⟨fate, hF, hx⟩ := h
  by_cases hwrite : ∃ record, o = .engine (.journalWrite record) ∧ record.resource = r
  · obtain ⟨record, rfl, rfl⟩ := hwrite
    by_cases hK : record.leaseId = K
    · exact .inr ⟨record, rfl, rfl, hK⟩
    · left
      rcases exec_cells hx record.resource with ⟨-, hcell⟩ | ⟨ht, -⟩
      · have hkept : (w'.cells record.resource).record K = (w.cells record.resource).record K := by
          cases fate <;>
            simp only [Cell.exec, Cell.execEngine, Cell.journalWrite, Option.some.injEq,
              Prod.mk.injEq] at hcell <;> rw [← hcell.2]
          · exact AList.lookup_insert_ne (Ne.symm hK)
          · rfl
          · exact AList.lookup_insert_ne (Ne.symm hK)
        rw [hkept, hn]
      · exact absurd rfl ht
  by_cases hremove : ∃ K' removal, o = .engine (.journalRemove K' r removal)
  · obtain ⟨K', removal, rfl⟩ := hremove
    left
    rcases exec_cells hx r with ⟨-, hcell⟩ | ⟨ht, -⟩
    · have herase : ((w.cells r).journal.erase K').lookup K = none := by
        by_cases hK : K = K'
        · subst hK
          exact AList.lookup_erase _ _
        · rw [AList.lookup_erase_ne hK]
          exact hn
      cases fate <;>
        simp only [Cell.exec, Cell.execEngine, Cell.journalRemove, Option.some.injEq,
          Prod.mk.injEq] at hcell <;> rw [← hcell.2]
      · exact herase
      · exact hn
      · exact herase
    · exact absurd rfl ht
  · left
    have hsame := (handler_footprint ⟨fate, hF, hx⟩ r).journal
      (fun record ho hr => hwrite ⟨record, ho, hr⟩) fun K' resource removal ho hr =>
        hremove ⟨K', removal, hr ▸ ho⟩
    rw [Cell.record, hsame]
    exact hn

/-- A free lock stays free until it is acquired. -/
lemma lock_free (h : World.handler F i m o w answer w') (hn : (w.cells r).lock = none) :
    (w'.cells r).lock = none ∨ o = .acquire r ∨ o = .tryAcquire r := by
  by_cases ho : o = .acquire r ∨ o = .tryAcquire r
  · exact .inr ho
  left
  rw [not_or] at ho
  by_cases hrelease : o = .release r
  · subst hrelease
    obtain ⟨fate, -, hx⟩ := h
    rcases exec_cells hx r with ⟨-, hcell⟩ | ⟨ht, -⟩
    · simp only [Cell.exec, Option.some.injEq, Prod.mk.injEq] at hcell
      rw [← hcell.2]
    · exact absurd rfl ht
  · rw [(handler_footprint h r).lock ho.1 ho.2 hrelease, hn]

/-- A successful removal leaves no record. -/
lemma record_removed {K : LeaseId} {removal : Removal} {answer : Except Error Unit}
    (h : World.handler F i m (.engine (.journalRemove K r removal)) w answer w')
    (hok : answer = .ok ()) : (w'.cells r).record K = none := by
  obtain ⟨fate, -, hx⟩ := h
  rcases exec_cells hx r with ⟨-, hcell⟩ | ⟨ht, -⟩
  · cases fate <;>
      simp only [Cell.exec, Cell.execEngine, Cell.journalRemove, Option.some.injEq,
        Prod.mk.injEq] at hcell
    · rw [← hcell.2]
      exact AList.lookup_erase _ _
    · exact absurd (hcell.1.trans hok) (by simp)
    · exact absurd (hcell.1.trans hok) (by simp)
  · exact absurd rfl ht

lemma lock_released {answer : Unit} (h : World.handler F i m (.release r) w answer w') :
    (w'.cells r).lock = none := by
  obtain ⟨fate, -, hx⟩ := h
  rcases exec_cells hx r with ⟨-, hcell⟩ | ⟨ht, -⟩
  · simp only [Cell.exec, Option.some.injEq, Prod.mk.injEq] at hcell
    rw [← hcell.2]
  · exact absurd rfl ht

end World

end Osdns
