import Osdns.Faultless.Calls
import Osdns.Serial.Restore
import Osdns.System.Footprint

/-!
# Restoring without faults and without interference

When the lease of a live record made the latest native write and the resource is still the one it
leased, whatever the record kept from failed attempts explains the current snapshot
(`LiveOK.explained`).  From there `restoreLiveState` without faults goes through: what is
outstanding is resolved, the base is written over the evidence, and the record is removed.
-/

namespace Osdns

open Interaction
open Interaction.Fallible (ask value attempt)
open Engine

variable {r : ResourceId} {L : LeaseId} {ctx : Context} {c d : Cell} {caps : Capabilities}
variable {live : FakeLive} {record resume : FakeRecord} {p : FakeSnapshot}
variable {pending : PendingRollback FakeSnapshotData}

/-! ## What a live record explains -/

/-- A rollback that names the snapshot `p`, and the record that takes over when it is done. -/
structure PendingRollback.Explains (r : ResourceId) (L : LeaseId) (record : FakeRecord)
    (p : FakeSnapshot) (pending : PendingRollback FakeSnapshotData) (resume : FakeRecord) :
    Prop where
  names : pending.evidence = some p ∨ pending.evidence = none ∧ pending.target = p
  target : pending.target.Of r
  resumed : resume.On r L
  before : resume.before = record.before
  identity : resume.identity = record.identity
  prepared : resume.phase = .prepared → pending.target.data.state = record.before.data.state

/-- What a runtime state says about the snapshot `p` the lease wrote last. -/
def LiveState.Explains (r : ResourceId) (L : LeaseId) (record : FakeRecord) (p : FakeSnapshot) :
    FakeLiveState → Prop
  | .committed => record.applied = some p
  | .unmutated => p.data.state = record.before.data.state
  | .prepared => False
  | .verified mutation => mutation.persist = p
  | .compensating pending resume => pending.Explains r L record p resume
  | .repair next => next.isRepair = false ∧ next.Explains r L record p

/-- A live record that explains the current snapshot of its resource. -/
structure Explained (r : ResourceId) (L : LeaseId) (live : FakeLive) (p : FakeSnapshot) (c : Cell) :
    Prop where
  live_eq : c.live L = some live
  on : live.record.On r L
  before : live.record.before.Of r
  status : c.resourceStatus live.record.identity = .ok .same
  snapshot : c.snapshot r = some p
  state : live.state.Explains r L live.record p

lemma StateOK.explains {state : FakeLiveState} (h : StateOK r L record state c) (ho : Ours L c)
    (hp : c.snapshot r = some p) : state.Explains r L record p := by
  induction state with
  | committed =>
      obtain ⟨-, q, hq, he⟩ := h
      rw [LiveState.Explains, hq, ← he.names ho, hp]
  | unmutated =>
      have hs := (Cell.snapshot_eq_some hp).2.1
      exact Option.some.inj (hs.symm.trans (h ho))
  | prepared => exact h
  | verified mutation => exact Option.some.inj ((Expresses.names h ho).symm.trans hp)
  | compensating pending resume =>
      have hres : ResumeOK r L record pending resume c := h
      refine ⟨?_, hres.rollback.target.of, hres.resumed.on, hres.before, hres.identity, hres.prepared⟩
      cases he : pending.evidence with
      | none => exact .inr ⟨rfl, Option.some.inj ((hres.rollback.without he ho).symm.trans hp)⟩
      | some q => exact .inl ((hres.rollback.evidence q he).2 ho ▸ hp)
  | repair next ih => exact ⟨h.1, ih h.2⟩

/-- On every path a live record keeps evidence that explains what its lease wrote last. -/
lemma LiveOK.explained (h : LiveOK r L live c) (hlive : c.live L = some live) (ho : Ours L c)
    (hs : c.resourceStatus live.record.identity = .ok .same) : ∃ p, Explained r L live p c := by
  obtain ⟨-, state, hstate⟩ := Cell.status_same hs
  have hp : c.snapshot r = some ⟨.fake, r, ⟨state, c.generation⟩⟩ := by
    rw [Cell.snapshot, hstate, Option.map_some]
  exact ⟨_, hlive, h.record.on, h.record.before, hs, hp, h.state.explains ho hp⟩

/-! ## The end of a restore -/

/-- The native state is back at `before` and the lease has no record any more. -/
structure Undone (L : LeaseId) (before : FakeSnapshot) (answer : Except Error Unit) (c : Cell) :
    Prop where
  answer : answer = .ok ()
  state : c.state = some before.data.state
  record : c.record L = none

lemma stops_finishRestore (hon : record.On r L) (hs : c.state = some record.before.data.state) :
    EngineStops ctx r (finishRestore record).run (Undone L record.before) c := by
  refine stops_journalRemove hon.resource (stops_fire ⟨rfl, hs, ?_⟩)
  rw [hon.lease]
  exact AList.lookup_erase _ _

/-- What a compensation keeps of the cell. -/
lemma Cell.Rolled.status (h : c.Rolled L d) {identity : FakeResourceIdentity}
    (hs : c.resourceStatus identity = .ok .same) : d.resourceStatus identity = .ok .same := by
  rcases h with rfl | ⟨old, new, now, rfl⟩
  · exact hs
  · exact Cell.status_mutate hs

/-- `restoreApplied` over a verified state that is current. -/
lemma stops_restoreApplied (hon : record.On r L) (hb : record.before.Of r)
    (hs : c.resourceStatus record.identity = .ok .same) (hp : c.snapshot r = some p) :
    EngineStops ctx r (restoreApplied (fakeBackend caps) ⟨L, r⟩ record p).run
      (Undone L record.before) c := by
  refine stops_liveSet (Fallible.stops_value (stops_compensate (p := p) hon.identity hs hp hb (.inl rfl))
    fun answer d h => ?_)
  obtain ⟨answer, rollback⟩ := answer
  obtain ⟨-, q, rfl, hq, hstate⟩ := h
  refine stops_liveSet (stops_finishRestore hon ?_)
  exact (Cell.snapshot_eq_some hq).2.1.trans (congrArg some hstate)

/-- `restoreOwned` of a committed live record that explains the current snapshot. -/
lemma stops_restoreOwned (h : Explained r L ⟨record, .committed⟩ p c) :
    EngineStops ctx r (restoreOwned (fakeBackend caps) ⟨L, r⟩ p).run (Undone L record.before) c := by
  have hof := (Cell.snapshot_eq_some h.snapshot).1
  have howns : (fakeBackend caps).provesCurrent p p = true :=
    (fakeBackend_provesCurrent hof hof).mpr rfl
  have happlied : record.applied = some p := h.state
  refine stops_liveGet h.live_eq ?_
  dsimp only [ExceptT.bindCont, LiveRecord.applied]
  rw [happlied]
  simp only [fakeBackend_ownsCurrent, howns, Bool.true_eq_false, ↓reduceIte]
  exact stops_restoreApplied h.on h.before h.status h.snapshot

/-! ## Resolution -/

/-- A live record over the same `before`, with nothing outstanding. -/
structure Cleared (r : ResourceId) (L : LeaseId) (before : FakeSnapshot)
    (answer : Except Error Unit) (c : Cell) : Prop where
  answer : answer = .ok ()
  cleared : ∃ live p, Explained r L live p c ∧ live.state.isSettled = true ∧ live.record.before = before

/-- A record that takes over from one that explains a snapshot. -/
lemma Explained.replace {state : FakeLiveState} {q : FakeSnapshot} (h : Explained r L live p c)
    (hd : d.live L = some ⟨record, state⟩) (hon : record.On r L)
    (hb : record.before = live.record.before) (hi : record.identity = live.record.identity)
    (hs : d.resourceStatus live.record.identity = .ok .same) (hq : d.snapshot r = some q)
    (hstate : state.Explains r L record q) : Explained r L ⟨record, state⟩ q d :=
  ⟨hd, hon, by rw [hb]; exact h.before, by rw [hi]; exact hs, hq, hstate⟩

/-- `finalizeVerified` of a verified mutation that is current. -/
lemma stops_finalizeVerified {mutation : VerifiedMutation FakeSnapshotData}
    (h : Explained r L live p c) (hs : mutation.persist = p) (current : Option FakeSnapshot)
    (hcurrent : ∀ q, current = some q → q = p) :
    EngineStops ctx r (finalizeVerified (fakeBackend caps) ⟨L, r⟩ live mutation current).run
      (Cleared r L live.record.before) c := by
  have hof := (Cell.snapshot_eq_some h.snapshot).1
  have howns : (fakeBackend caps).provesCurrent p p = true :=
    (fakeBackend_provesCurrent hof hof).mpr rfl
  have hrest : EngineStops ctx r (do
      let status ← ask (resourceStatus .forward live.record.identity)
      if status ≠ .same ∨ (fakeBackend caps).ownsCurrent mutation.persist p = false then
        throw (.externalModification live.record.resource
          "verified mutation no longer names current native state")
      let candidate := { live.record with phase := .applied, applied := some mutation.persist }
      ask (journalWrite candidate)
      value (liveSet ⟨L, r⟩ ⟨candidate, .committed⟩) :
        EngineResult FakeSnapshotData FakeIdentity Unit).run (Cleared r L live.record.before) c := by
    refine stops_status h.on.identity h.status ?_
    simp only [hs, fakeBackend_ownsCurrent, howns]
    have hcleared : Explained r L ⟨{ live.record with phase := .applied, applied := some p },
        .committed⟩ p ((c.written { live.record with phase := .applied, applied := some p }).setLive L
          ⟨{ live.record with phase := .applied, applied := some p }, .committed⟩) :=
      h.replace (by simp [Cell.setLive]) ⟨h.on.lease, h.on.resource, h.on.identity⟩ rfl rfl h.status
        h.snapshot rfl
    exact stops_journalWrite h.on.resource (stops_liveSet ⟨rfl, _, p, hcleared, rfl, rfl⟩)
  cases current with
  | none => exact stops_readback h.on.resource h.snapshot hrest
  | some q =>
      obtain rfl := hcurrent q rfl
      exact hrest

lemma resumeWith_identity (resume : FakeRecord) (identity : Option FakeSnapshot) :
    (resumeWith resume identity).identity = resume.identity := by
  unfold resumeWith
  split <;> rfl

/-- `resolveCompensation` of a rollback that names the current snapshot. -/
lemma stops_resolveCompensation (h : Explained r L live p c)
    (hs : pending.Explains r L live.record p resume) :
    EngineStops ctx r (resolveCompensation (fakeBackend caps) ⟨L, r⟩ live pending resume).run
      (Cleared r L live.record.before) c := by
  refine Fallible.stops_value (stops_compensate h.on.identity h.status h.snapshot hs.target hs.names)
    fun answer d hd => ?_
  obtain ⟨answer, rollback⟩ := answer
  obtain ⟨hrolled, q, rfl, hq, hstate⟩ := hd
  have hon : (resumeWith resume (some q)).On r L := by
    unfold resumeWith
    split
    · exact ⟨hs.resumed.lease, hs.resumed.resource, hs.resumed.identity⟩
    · exact hs.resumed
  have hb := (resumeWith_before resume (some q)).trans hs.before
  suffices hcleared : Explained r L ⟨resumeWith resume (some q), (resumeWith resume (some q)).settledState⟩ q
      ((d.written (resumeWith resume (some q))).setLive L
        ⟨resumeWith resume (some q), (resumeWith resume (some q)).settledState⟩) from
    stops_journalWrite hon.resource
      (stops_liveSet ⟨rfl, _, q, hcleared, JournalRecord.settledState_isSettled _, hb⟩)
  refine h.replace (by simp [Cell.setLive]) hon hb ((resumeWith_identity resume _).trans hs.identity)
    (hrolled.status h.status) hq ?_
  by_cases hphase : resume.phase = .applied
  · simp [JournalRecord.settledState, resumeWith, hphase, LiveState.Explains]
  · have hprepared : resume.phase = .prepared := by
      cases hcase : resume.phase with
      | prepared => rfl
      | applied => exact absurd hcase hphase
    simp only [JournalRecord.settledState, resumeWith, hphase, ↓reduceIte, LiveState.Explains]
    rw [hstate, hs.prepared hprepared, hs.before]

/-- The part of `resolve_live` after a journal repair. -/
lemma stops_resolveState (caps : Capabilities) (h : Explained r L live p c)
    (hn : live.state.isRepair = false) (current : Option FakeSnapshot) (hcurrent : ∀ q, current = some q → q = p) :
    EngineStops ctx r (match live.state with
      | .committed => return
      | .unmutated => return
      | .prepared =>
          throw (.externalModification live.record.resource
            "prepared intent has no verified applied mutation")
      | .verified mutation => finalizeVerified (fakeBackend caps) ⟨L, r⟩ live mutation current
      | .compensating pending resume =>
          resolveCompensation (fakeBackend caps) ⟨L, r⟩ live pending resume
      | .repair _ => throw (.panicked "journal repair is resolved first") :
        EngineResult FakeSnapshotData FakeIdentity Unit).run
      (Cleared r L live.record.before) c := by
  have hstate := h.state
  cases hs : live.state with
  | committed => exact ⟨rfl, live, p, h, by rw [hs]; rfl, rfl⟩
  | unmutated => exact ⟨rfl, live, p, h, by rw [hs]; rfl, rfl⟩
  | prepared =>
      rw [hs] at hstate
      exact hstate.elim
  | verified mutation =>
      rw [hs] at hstate
      exact stops_finalizeVerified h hstate current hcurrent
  | compensating pending resume =>
      rw [hs] at hstate
      exact stops_resolveCompensation h hstate
  | repair next =>
      rw [hs] at hn
      exact absurd hn (by simp [LiveState.isRepair])

/-- `resolve_live` of a live record that explains the current snapshot. -/
lemma stops_resolveLive (h : Explained r L live p c) (current : Option FakeSnapshot)
    (hcurrent : ∀ q, current = some q → q = p) :
    EngineStops ctx r (resolveLive (fakeBackend caps) ⟨L, r⟩ current).run
      (Cleared r L live.record.before) c := by
  unfold resolveLive
  refine stops_liveGet h.live_eq ?_
  obtain ⟨record, state⟩ := live
  cases state with
  | repair next =>
      obtain ⟨hn, hstate⟩ := h.state
      have hnext : Explained r L ⟨record, next⟩ p ((c.written record).setLive L ⟨record, next⟩) :=
        h.replace (by simp [Cell.setLive]) h.on rfl rfl h.status h.snapshot hstate
      refine stops_journalWrite (k := fun _ => _) h.on.resource (stops_liveSet (k := fun _ => _) ?_)
      cases next <;> exact stops_resolveState caps hnext hn current hcurrent
  | committed => exact stops_resolveState caps h rfl current hcurrent
  | unmutated => exact stops_resolveState caps h rfl current hcurrent
  | prepared => exact stops_resolveState caps h rfl current hcurrent
  | verified mutation => exact stops_resolveState caps h rfl current hcurrent
  | compensating pending resume => exact stops_resolveState caps h rfl current hcurrent

/-! ## Restoring a live record -/

/-- `restore_live_state` of a live record that explains the current snapshot. -/
lemma stops_restoreLiveState (h : Explained r L live p c) :
    EngineStops ctx r (restoreLiveState (fakeBackend caps) ⟨L, r⟩).run
      (Undone L live.record.before) c := by
  obtain ⟨hof, hs, -⟩ := Cell.snapshot_eq_some h.snapshot
  have hequal : ∀ {q before : FakeSnapshot}, q.Of r → before.Of r →
      ((fakeBackend caps).equivalent q before = true ↔ q.data.state = before.data.state) :=
    fun hq hb => fakeBackend_equivalent hq hb
  refine stops_liveGet h.live_eq (stops_status h.on.identity h.status
    (stops_readback h.on.resource h.snapshot (stops_fire ?_)))
  dsimp only [ExceptT.bindCont]
  split
  · rename_i heq
    exact stops_finishRestore h.on (hs.trans (congrArg some ((hequal hof h.before).mp heq)))
  -- What is outstanding is resolved first; then the live record explains a state again.
  have hresolve : EngineStops ctx r (do
      resolveLive (fakeBackend caps) ⟨L, r⟩ (some p)
      let live ← value (liveGet ⟨L, r⟩)
      let current ← ask (readback .forward live.record.resource)
      if (fakeBackend caps).equivalent current live.record.before then finishRestore live.record
      else restoreOwned (fakeBackend caps) ⟨L, r⟩ current :
        EngineResult FakeSnapshotData FakeIdentity Unit).run (Undone L live.record.before) c := by
    refine Fallible.stops_bind (stops_resolveLive h (some p) fun q hq => (Option.some.inj hq).symm)
      (fun _ d hd => ?_) fun _ _ hd => absurd hd.answer (by simp)
    obtain ⟨⟨record, state⟩, q, hq, hset, hb⟩ := hd.cleared
    obtain ⟨hofq, hsq, -⟩ := Cell.snapshot_eq_some hq.snapshot
    refine stops_liveGet hq.live_eq (stops_readback hq.on.resource hq.snapshot ?_)
    rw [← hb]
    dsimp only [ExceptT.bindCont]
    split
    · rename_i heq
      exact stops_finishRestore hq.on (hsq.trans (congrArg some ((hequal hofq hq.before).mp heq)))
    · rename_i hne
      cases state with
      | committed => exact stops_restoreOwned hq
      | unmutated => exact absurd ((hequal hofq hq.before).mpr hq.state) hne
      | prepared | verified | compensating | repair =>
          exact absurd hset (by simp [LiveState.isSettled])
  obtain ⟨record, state⟩ := live
  cases state with
  | committed => exact stops_restoreOwned h
  | unmutated | prepared | verified | compensating | repair => exact hresolve

/-! ## Restoring any live record -/

/-- A call on the cell by itself is a call on the cell among others. -/
lemma engineHandler_alone {F : Faults} {o : EngineOp FakeSnapshotData FakeIdentity}
    {answer : EngineRet FakeSnapshotData FakeIdentity o}
    (h : Cell.engineAlone noFaults ctx r o c answer d) :
    Cell.engineHandler F ctx.session ctx.manager r o c answer d := by
  obtain ⟨fate, hfate, ⟨ht, hx⟩ | ⟨ht, rfl, hx⟩⟩ := h
  · obtain rfl := hfate.resolve_right id
    have ht' : (ManagerOp.engine o).target = some r := ht
    simp only [Cell.engineHandler, Cell.handler, if_pos ht']
    exact ⟨ctx.now, ctx.nextToken, .proceed, .inl rfl, hx⟩
  · obtain rfl := hfate.resolve_right id
    have ht' : (ManagerOp.engine o).target ≠ some r := by rw [ht]; simp
    simp only [Cell.engineHandler, Cell.handler, if_neg ht']
    refine ⟨trivial, ?_⟩
    have hx := hx (.pristine (.single r) .empty)
    cases o with
    | fire | newLeaseId =>
        obtain ⟨rfl, -⟩ := Prod.mk.inj (Option.some.inj hx)
        exact ⟨trivial, by simp⟩
    | journalRecords =>
        have hempty : (World.pristine (.single r) .empty).readRecords = .ok [] := rfl
        have hanswer := (Prod.mk.inj (Option.some.inj hx)).1
        change (World.pristine (.single r) .empty).readRecords = answer at hanswer
        obtain rfl := hempty.symm.trans hanswer
        refine ⟨?_, ?_⟩ <;> rintro records ⟨⟩
        · exact ⟨List.nodup_nil, by simp⟩
        · simp
    | _ => cases ht

/-- What the answers of a cell need to name what they are about, and what lets a lease read its
live record. -/
def Readable (r : ResourceId) (L : LeaseId) (c : Cell) : Prop :=
  CellInv r c ∧ (c.live L).isSome

/-- A call for the lease on its resource can be answered. -/
lemma Readable.answered {o : EngineOp FakeSnapshotData FakeIdentity} (ho : o.For L (· = r))
    (h : Readable r L c) : ∃ answer d, Cell.engineAlone noFaults ctx r o c answer d := by
  have hcell : o.target = some r → (∃ answer d, c.execEngine r ctx .proceed o = some (answer, d)) →
      ∃ answer d, Cell.engineAlone noFaults ctx r o c answer d :=
    fun ht ⟨answer, d, hx⟩ => ⟨answer, d, .proceed, .inl rfl, .inl ⟨ht, hx⟩⟩
  cases o with
  | fire => exact ⟨.ok (), c, .proceed, .inl rfl, .inr ⟨rfl, rfl, fun _ => rfl⟩⟩
  | newLeaseId => exact ⟨ctx.session, c, .proceed, .inl rfl, .inr ⟨rfl, rfl, fun _ => rfl⟩⟩
  | journalRecords => exact absurd rfl ho.listing
  | liveGet ref =>
      obtain ⟨live, hlive⟩ := Option.isSome_iff_exists.mp h.2
      refine hcell (congrArg some (ho.target _ rfl)) ⟨live, c, ?_⟩
      simp only [Cell.execEngine, ho.reads ref rfl, hlive, Option.map_some]
  | observe =>
      refine hcell (congrArg some (ho.target _ rfl)) ?_
      cases hs : c.snapshot r with
      | none => exact ⟨_, _, by simp only [Cell.execEngine, hs]; rfl⟩
      | some p => exact ⟨_, _, by simp only [Cell.execEngine, hs]; rfl⟩
  | _ => exact hcell (congrArg some (ho.target _ rfl)) ⟨_, _, rfl⟩

/-- A call that keeps the invariant of the cell keeps it readable, and its answer names what it is
about. -/
lemma Readable.kept {o : EngineOp FakeSnapshotData FakeIdentity}
    {answer : EngineRet FakeSnapshotData FakeIdentity o} (ho : o.For L (· = r))
    (h : Readable r L c) (hx : Cell.engineAlone noFaults ctx r o c answer d) (hinv : CellInv r d) :
    Named o answer ∧ Readable r L d := by
  have hhandler := engineHandler_alone (F := noFaults) hx
  obtain ⟨fate, -, ⟨ht, hx⟩ | ⟨ht, rfl, -⟩⟩ := hx
  · have hlive : (d.live L).isSome := by
      by_cases hset : ∃ ref live, o = .liveSet ref live
      · obtain ⟨ref, live, rfl⟩ := hset
        obtain ⟨-, rfl⟩ := Prod.mk.inj (Option.some.inj hx)
        by_cases hL : L = ref.lease
        · subst hL
          simp
        · simpa [hL] using h.2
      · rw [(Cell.footprint_engine ht hx).live fun ref live ho => absurd
          ⟨ref, live, ManagerOp.engine.inj ho⟩ hset]
        exact h.2
    refine ⟨?_, hinv, hlive⟩
    cases o with
    | liveGet ref =>
        obtain ⟨live, hl, heq⟩ := Option.map_eq_some_iff.mp hx
        obtain ⟨rfl, rfl⟩ := Prod.mk.inj heq
        obtain rfl : ref.resource = r := ho.target _ rfl
        exact h.1.live ref.lease live hl
    | observe resource =>
        obtain rfl : resource = r := ho.target _ rfl
        rintro observation rfl
        rcases Cell.engineHandler_observe hhandler with ⟨⟨_, he⟩, -⟩ | ⟨p, -, ho, -⟩
        · exact absurd he (by simp)
        · rw [Except.ok.inj ho]
    | journalRecords => exact absurd rfl ho.listing
    | _ => trivial
  · refine ⟨?_, h⟩
    cases o with
    | fire | newLeaseId => trivial
    | journalRecords => exact absurd rfl ho.listing
    | _ => cases ht

/-- Whatever the native state is, `restore_live_state` of a live record in order stops. -/
lemma stops_restoreAny {c₀ : Cell} (h : Holding r L c₀ live c) :
    EngineStops ctx r (restoreLiveState (fakeBackend caps) ⟨L, r⟩).run
      (fun _ d => Ended r L c₀ d) c := by
  have hsat : Program.Sat (Cell.engineAlone noFaults ctx r) (.none Cell)
      (engineGuarantee r ctx.session) (restoreLiveState (fakeBackend caps) ⟨L, r⟩).run
      (fun _ => Ended r L c₀) c :=
    (sat_restoreLiveState rfl h).weaken
      (fun _ _ _ _ hx => engineHandler_alone (F := noFaults) hx)
      (fun _ _ hst => hst ▸ interference.refl _) fun _ _ _ _ _ hg => hg
  refine (Program.Stops.of_sat (P := Readable r L) (A := Named) (C := EngineOp.For L (· = r))
    (fun _ _ ho hP => hP.answered ho) (fun _ _ _ _ ho hP hx hg => hP.kept ho hx hg.1) hsat
    (engineFor_restoreLiveState (fakeBackend caps) rfl) ⟨h.inv, ?_⟩).mono fun _ _ h => h.1
  rw [h.live_eq]
  rfl

end Osdns
