import Osdns.Serial.Elsewhere
import Osdns.Serial.Transitions

/-!
# Restore and recovery on one resource

`restoreLiveState` ends a live record, `recoverRecord` a record whose process is gone.  Both
overwrite the native state only over evidence of the lease, and remove a record only when the
native state is back at its base, or the resource is gone or replaced.
-/

namespace Osdns

open Interaction
open Interaction.Fallible (ask value attempt)
open Engine

variable {r : ResourceId} {L : LeaseId} {b : FakeState} {c c₀ d : Cell}
variable {F : Faults} {i : SessionId} {m : ManagerId} {caps : Capabilities} {α : Type}
variable {live : FakeLive} {record : FakeRecord}

/-! ## Restore -/

/-- A live record whose removal may have been attempted. -/
def Ended (r : ResourceId) (L : LeaseId) (c₀ c : Cell) : Prop :=
  Closed r c₀ c ∧ ∃ live, c.live L = some live ∧ LiveOK r L live c

lemma Ended.stable : Stable interference (Ended r L c₀) := fun h ⟨hc, live, hl, hok⟩ =>
  ⟨Closed.stable h hc, live, (congrFun h.live L).trans hl, LiveOK.stable h hok⟩

lemma Holding.ended (h : Holding r L c₀ live c) : Ended r L c₀ c :=
  ⟨⟨h.inv, h.frame.lock, h.frame.active⟩, live, h.live_eq, h.ok⟩

lemma Held.ended {before : FakeSnapshot} (h : Held r L c₀ before c) : Ended r L c₀ c :=
  h.choose_spec.1.ended

/-- The removal of a record leaves its live record in order when the lease was given up, or no
longer changes the native state. -/
lemma Removed.liveOK {removal : Removal} {success : Prop} (h : Removed r L removal success c d)
    (hok : LiveOK r L live c)
    (hs : removal = .settled → Ours L c → c.state = some live.record.before.data.state) :
    LiveOK r L live d where
  record := hok.record.shift h.shift
  state := hok.state.shift h.shift
  logged := by
    have hmem : (L, removal) ∈ d.removals := by
      rw [h.removals]
      exact List.mem_cons_self ..
    refine .inr ⟨⟨removal, hmem⟩, ?_⟩
    by_cases hr : removal = .settled
    · exact .inr fun ho => h.shift.state_of_ours (hs hr) ho
    · exact .inl ⟨removal, hr, hmem⟩
  same hr record' hrec := by
    rcases h.journal with hj | ⟨-, hj⟩
    · rw [hj] at hrec
      exact absurd hrec (by simp)
    · exact hok.same hr record' (hj.symm.trans hrec)
  agree hr := by
    refine absurd ⟨removal, ?_⟩ hr
    rw [h.removals]
    exact List.mem_cons_self ..

/-- The removal of the record of a live record. -/
lemma sat_removeLive {removal : Removal} {k : Except Error Unit →
      Engine FakeSnapshotData FakeIdentity α} {Q : α → Cell → Prop} (h : Holding r L c₀ live c)
    (hs : removal = .settled → Ours L c → c.state = some live.record.before.data.state)
    (hk : ∀ d answer, Ended r L c₀ d → d.removals = (L, removal) :: c₀.removals →
      EngineSat F i m r (k answer) Q d) :
    EngineSat F i m r
      (journalRemove live.record.leaseId live.record.resource removal >>= k) Q c := by
  rw [h.ok.record.lease]
  refine sat_journalRemove h.ok.record.resource h.inv h.known (fun hr ho => ?_)
    fun d answer _ hd => hk d answer ⟨⟨hd.inv, hd.lock.trans h.frame.lock,
      hd.active.trans h.frame.active⟩, live, by rw [hd.live, h.live_eq], hd.liveOK h.ok hs⟩
      (by rw [hd.removals, h.frame.removals])
  rw [hs hr ho, h.ok.record.base ho]

/-- `finishRestore` over the content of `before`. -/
lemma sat_finishRestore (h : Holding r L c₀ live c)
    (hs : Ours L c → c.state = some live.record.before.data.state) :
    EngineSat F i m r (finishRestore live.record).run (fun _ => Ended r L c₀) c := by
  refine sat_removeLive h (fun _ => hs) fun d answer hd _ => ?_
  match answer with
  | .error error => exact sat_pure Ended.stable hd
  | .ok _ => exact sat_fire hd.1.inv fun e answer he _ => sat_pure Ended.stable (Ended.stable he hd)

/-- Evidence that is current over another content than the base means that the record is kept. -/
lemma Logged.kept_of_current {p : FakeSnapshot} (h : Logged L b c) (hp : Issued r L b p c)
    (hs : c.snapshot r = some p) (hne : p.data.state ≠ b) : Kept L c := by
  rcases h with h | ⟨-, h | h⟩
  · exact .inr h
  · exact .inl h
  · rcases hp.owned hs with ho | hb
    · have hstate := (Cell.snapshot_eq_some hs).2.1
      rw [h ho, Option.some.injEq] at hstate
      exact absurd hstate.symm hne
    · exact absurd hb hne

/-- The record a restore resumes with: nothing is known to be applied. -/
def JournalRecord.restoring (record : FakeRecord) : FakeRecord :=
  { record with phase := .prepared, applied := none }

/-- A verified state may be restored to `before`. -/
lemma LiveOK.restoring {applied : FakeSnapshot}
    (h : LiveOK r L ⟨record, .committed⟩ c) (ha : record.applied = some applied) :
    LiveOK r L ⟨record, .compensating ⟨some applied, record.before⟩ record.restoring⟩ c where
  record := h.record
  state := by
    have hr := h.record
    obtain ⟨-, p, hp, he⟩ := h.state
    obtain rfl : p = applied := Option.some.inj (hp.symm.trans ha)
    exact
      { rollback :=
          ⟨⟨hr.before, hr.before_le, fun _ => .inr rfl⟩, fun q hq => by
            obtain rfl := Option.some.inj hq
            exact ⟨he.issued, he.names⟩, fun hn => absurd hn (by simp)⟩
        resumed := ⟨hr.lease, hr.resource, hr.identity, hr.before, hr.before_le, hr.base,
          fun q hq => absurd hq (by simp [JournalRecord.restoring])⟩
        applied := fun hphase => absurd hphase (by simp [JournalRecord.restoring])
        prepared := fun _ => rfl
        before := rfl
        identity := rfl }
  logged := h.logged
  same _ := h.same rfl
  agree _ hs := absurd hs (by simp [LiveState.isSettled])

/-- `restoreApplied` over a verified state that was just read. -/
lemma sat_restoreApplied {ref : LiveRef} {applied : FakeSnapshot} (href : ref = ⟨L, r⟩)
    (h : Holding r L c₀ ⟨record, .committed⟩ c) (ha : record.applied = some applied)
    (hne : applied.data.state ≠ record.before.data.state) :
    EngineSat F i m r (restoreApplied (fakeBackend caps) ref record applied).run
      (fun _ => Ended r L c₀) c := by
  refine sat_liveSet href h.inv (h.ok.restoring ha).on h.known (.inl fun old hold => ?_)
    fun d hd => ?_
  · obtain rfl := Option.some.inj (h.live_eq.symm.trans hold)
    rfl
  have hhd : Holding r L c₀ _ (d.setLive L _) := .setLive (CellInv.stable hd h.inv)
    (LiveOK.stable hd (h.ok.restoring ha)) (Framed.stable hd h.frame)
  generalize hpending : (⟨some applied, record.before⟩ : PendingRollback FakeSnapshotData) = pending
    at hhd
  have hres : ResumeOK r L record pending record.restoring _ := hhd.ok.state
  subst href
  refine Fallible.sat_value (sat_compensate hhd.ok.record.identity (hhd.working rfl) hres.rollback
    fun p hp hs => ?_) fun answer e he => ?_
  · obtain rfl : applied = p := by
      rw [← hpending] at hp
      exact Option.some.inj hp
    exact hhd.ok.logged.kept_of_current (hres.rollback.evidence applied hp).1 hs hne
  have hw := he.working
  have hlive : e.live L = some ⟨record, .compensating pending record.restoring⟩ := by
    rw [hw.memory.live, hhd.live_eq]
  have hframe : Framed c₀ e := hhd.frame.trans hw.memory.framed
  have hresume : ResumeOK r L record answer.2 record.restoring e :=
    { rollback := he.rollback
      resumed := hres.resumed.working rfl hw
      applied := fun hphase => absurd hphase (by simp [JournalRecord.restoring])
      prepared := fun _ => by rw [he.target_eq]; exact hres.prepared rfl
      before := rfl
      identity := rfl }
  have hrecord : RecordOK r L record e := hhd.ok.record.working rfl hw
  have hlogged := hw.logged hhd.ok.logged
  match answer with
  | (.error error, rollback) =>
      refine Fallible.sat_attempt (sat_retainCompensation rfl hw.inv hframe hlive rfl hrecord
        hresume hlogged) fun _ u hu => sat_pure Ended.stable hu.ended
  | (.ok identity, rollback) =>
      have hok : LiveOK r L ⟨record, .compensating rollback record.restoring⟩ e :=
        hw.liveOK hhd.ok rfl hresume fun hs => absurd hs (by simp [LiveState.isSettled])
      refine sat_liveSet rfl hw.inv hok.on hw.known (.inl fun old hold => ?_) fun u hu => ?_
      · obtain rfl := Option.some.inj (hlive.symm.trans hold)
        rfl
      have hhu : Holding r L c₀ _ (u.setLive L _) := .setLive (CellInv.stable hu hw.inv)
        (LiveOK.stable hu hok) (Framed.stable hu hframe)
      refine sat_finishRestore hhu fun ho => ?_
      have hsettled := (Settled.stable hu (he.settled identity rfl)).state ho
      change u.state = _
      rw [hsettled, ← hpending]

/-- `restoreOwned` of a live record whose state `current` was just read. -/
lemma sat_restoreOwned {ref : LiveRef} {current : FakeSnapshot} (href : ref = ⟨L, r⟩)
    (h : Holding r L c₀ live c) (hof : current.Of r)
    (hne : (fakeBackend caps).equivalent current live.record.before = false) :
    EngineSat F i m r (restoreOwned (fakeBackend caps) ref current).run
      (fun _ => Ended r L c₀) c := by
  refine sat_liveGet href h.inv h.live_eq fun d hd => ?_
  have hh := Holding.stable hd h
  dsimp only [ExceptT.bindCont]
  split
  · exact sat_pure Ended.stable hh.ended
  · rename_i applied happlied
    obtain ⟨record, state⟩ := live
    cases state with
    | committed =>
        have ha : record.applied = some applied := happlied
        split
        · exact sat_pure Ended.stable hh.ended
        · rename_i hown
          obtain ⟨-, p, hp, he⟩ := hh.ok.state
          obtain rfl : p = applied := Option.some.inj (hp.symm.trans ha)
          rw [Bool.not_eq_false, fakeBackend_ownsCurrent,
            fakeBackend_provesCurrent he.issued.of hof] at hown
          subst hown
          refine sat_restoreApplied href hh ha fun hb => ?_
          rw [(fakeBackend_equivalent hof h.ok.record.before).mpr hb] at hne
          exact absurd hne (by simp)
    | _ => exact absurd happlied (by simp [LiveRecord.applied])

/-- A state that was read with the content of `before` still has it while the lease is the last
writer. -/
lemma Interference.state_of_read {current before : FakeSnapshot} (h : Interference c d)
    (hs : c.snapshot r = some current) (hb : before.Of r)
    (he : (fakeBackend caps).equivalent current before = true) (ho : Ours L d) :
    d.state = some before.data.state := by
  obtain ⟨hof, hstate, -⟩ := Cell.snapshot_eq_some hs
  rw [fakeBackend_equivalent hof hb] at he
  exact h.shift.state_of_ours (fun _ => he ▸ hstate) ho

/-- Evidence that is still current when a state of another content was read means that the
record is kept. -/
lemma Holding.kept_of_read {p current : FakeSnapshot} (h : Holding r L c₀ live c)
    (hp : Issued r L live.record.before.data.state p c) (hs : c.snapshot r = some current)
    (hne : (fakeBackend caps).equivalent current live.record.before = false)
    (hcur : c.snapshot r = some p) : Kept L c := by
  obtain rfl := Option.some.inj (hs.symm.trans hcur)
  refine h.ok.logged.kept_of_current hp hcur fun hb => ?_
  rw [(fakeBackend_equivalent hp.of h.ok.record.before).mpr hb] at hne
  exact absurd hne (by simp)

/-- `restore_live_state` ends a live record. -/
lemma sat_restoreLiveState {ref : LiveRef} (href : ref = ⟨L, r⟩) (h : Holding r L c₀ live c) :
    EngineSat F i m r (restoreLiveState (fakeBackend caps) ref).run
      (fun _ => Ended r L c₀) c := by
  have hremove : ∀ {d : Cell} {removal : Removal}, Holding r L c₀ live d → removal ≠ .settled →
      EngineSat F i m r (journalRemove live.record.leaseId live.record.resource removal >>= pure)
        (fun _ => Ended r L c₀) d := fun hd hne =>
    sat_removeLive hd (fun hr => absurd hr hne) fun _ _ he _ => sat_pure Ended.stable he
  refine sat_liveGet href h.inv h.live_eq fun d hd => ?_
  have hhd := Holding.stable hd h
  refine sat_status hhd.ok.record.identity hhd.inv fun e answer he => ?_
  have hhe := Holding.stable he hhd
  match answer with
  | .error error => exact sat_pure Ended.stable hhe.ended
  | .ok .gone => exact hremove hhe (by simp)
  | .ok .replaced => exact hremove hhe (by simp)
  | .ok .ambiguous => exact sat_pure Ended.stable hhe.ended
  | .ok .same =>
  refine sat_readback hhe.ok.record.resource hhe.inv fun u answer hu hread => ?_
  have hhu := Holding.stable hu hhe
  match answer with
  | .error error =>
      dsimp only [ExceptT.bindCont]
      split
      · exact hremove hhu (by simp)
      · exact sat_pure Ended.stable hhu.ended
      · rename_i heq
        exact absurd heq (by simp)
  | .ok current =>
  have hs := hread current rfl
  obtain ⟨hof, -, -⟩ := Cell.snapshot_eq_some hs
  refine sat_fire hhu.inv fun v answer hv _ => ?_
  have hhv := Holding.stable hv hhu
  match answer with
  | .error error => exact sat_pure Ended.stable hhv.ended
  | .ok _ =>
  dsimp only [ExceptT.bindCont]
  split
  · rename_i heq
    exact sat_finishRestore hhv fun ho => hv.state_of_read hs hhu.ok.record.before heq ho
  rename_i hne
  rw [Bool.not_eq_true] at hne
  -- What is outstanding is resolved first, over the state that was read.
  have hresolve : EngineSat F i m r (do
      resolveLive (fakeBackend caps) ref (some current)
      let live ← value (liveGet ref)
      let current ← ask (readback .forward live.record.resource)
      if (fakeBackend caps).equivalent current live.record.before then finishRestore live.record
      else restoreOwned (fakeBackend caps) ref current :
        EngineResult FakeSnapshotData FakeIdentity Unit).run (fun _ => Ended r L c₀) v := by
    refine Fallible.sat_bind (sat_resolveLive href hhv fun pending resume hstate p hp hcur => ?_)
      (fun _ w hw => ?_) fun _ w hw => sat_pure Ended.stable hw.held.ended
    · have hres : ResumeOK r L live.record pending resume u := by
        have := hhu.ok.state
        rwa [hstate] at this
      have hi := (hres.rollback.evidence p hp).1
      exact Kept.stable hv (hhu.kept_of_read hi hs hne (hv.shift.snapshot hi.generation_le hcur).1)
    · obtain ⟨live', hhw, -, -⟩ := hw
      refine sat_liveGet href hhw.inv hhw.live_eq fun x hx => ?_
      have hhx := Holding.stable hx hhw
      refine sat_readback hhx.ok.record.resource hhx.inv fun y answer hy hread => ?_
      have hhy := Holding.stable hy hhx
      match answer with
      | .error error => exact sat_pure Ended.stable hhy.ended
      | .ok current' =>
      have hs' := hread current' rfl
      dsimp only [ExceptT.bindCont]
      split
      · rename_i heq
        exact sat_finishRestore hhy fun ho =>
          (interference.refl y).state_of_read hs' hhy.ok.record.before heq ho
      · rename_i hne'
        exact sat_restoreOwned href hhy (Cell.snapshot_eq_some hs').1 (by simpa using hne')
  split
  · exact sat_restoreOwned href hhv hof hne
  · exact hresolve

/-! ## Recovery -/

/-- A durable record of a lease that does not hold the lock. -/
structure Orphan (r : ResourceId) (L : LeaseId) (record : FakeRecord) (c₀ c : Cell) : Prop where
  closed : Closed r c₀ c
  journal : c.record L = some record
  alone : ∀ m, c.lock ≠ some (m, L)
  fresh : ∀ L', L' ≠ L → Fresh L' c₀ → Fresh L' c

/-- What recovery leaves: only the recovered lease left a trace. -/
structure Recovered (r : ResourceId) (L : LeaseId) (c₀ c : Cell) : Prop where
  closed : Closed r c₀ c
  fresh : ∀ L', L' ≠ L → Fresh L' c₀ → Fresh L' c

lemma Recovered.stable : Stable interference (Recovered r L c₀) := fun h hc =>
  ⟨Closed.stable h hc.closed, fun L' hL' hf => Fresh.stable h (hc.fresh L' hL' hf)⟩

namespace Orphan

lemma stable : Stable interference (Orphan r L record c₀) := fun h hc =>
  ⟨Closed.stable h hc.closed, by rw [h.record, hc.journal], by rw [h.lock]; exact hc.alone,
    fun L' hL' hf => Fresh.stable h (hc.fresh L' hL' hf)⟩

lemma recordOK (h : Orphan r L record c₀ c) : RecordOK r L record c :=
  h.closed.inv.records L record h.journal

lemma recovered (h : Orphan r L record c₀ c) : Recovered r L c₀ c := ⟨h.closed, h.fresh⟩

lemma known (h : Orphan r L record c₀ c) : Known i L c := .inr (.inr (by rw [h.journal]; rfl))

/-- The start of a rollback. -/
lemma working (h : Orphan r L record c₀ c) : Working r i L record.before.data.state c c where
  inv := h.closed.inv
  backed := ⟨fun ho => (h.recordOK.base ho).symm, fun record' hrec => by
    obtain rfl := Option.some.inj (h.journal.symm.trans hrec)
    rfl⟩
  unblocked m _ hlock _ := absurd hlock (h.alone m)
  known := h.known
  memory := .refl c
  later := le_rfl
  issued _ hp := hp
  moved := .inl (.refl c)
  fresh _ _ hf := hf

lemma mutated (h : Orphan r L record c₀ c) (hw : Working r i L b c d) :
    Orphan r L record c₀ d where
  closed := ⟨hw.inv, hw.memory.lock.trans h.closed.lock, hw.memory.active.trans h.closed.active⟩
  journal := by rw [hw.memory.record, h.journal]
  alone := by rw [hw.memory.lock]; exact h.alone
  fresh L' hL' hf := hw.fresh L' hL' (h.fresh L' hL' hf)

/-- The removal of an orphan's record. -/
lemma sat_remove {removal : Removal} {k : Except Error Unit →
      Engine FakeSnapshotData FakeIdentity α} {Q : α → Cell → Prop}
    (h : Orphan r L record c₀ c)
    (hs : removal = .settled → Ours L c → c.state = some record.before.data.state)
    (hk : ∀ d answer, Recovered r L c₀ d → EngineSat F i m r (k answer) Q d) :
    EngineSat F i m r (journalRemove record.leaseId record.resource removal >>= k) Q c := by
  rw [h.recordOK.lease]
  refine sat_journalRemove h.recordOK.resource h.closed.inv h.known (fun hr ho => ?_)
    fun d answer _ hd => hk d answer ⟨⟨hd.inv, hd.lock.trans h.closed.lock,
      hd.active.trans h.closed.active⟩, fun L' hL' hf => hd.fresh L' hL' (h.fresh L' hL' hf)⟩
  rw [hs hr ho, h.recordOK.base ho]

end Orphan

/-- `finishRecovery` over the content of `before`. -/
lemma sat_finishRecovery {outcome : RecoveryOutcome} (h : Orphan r L record c₀ c)
    (hs : Ours L c → c.state = some record.before.data.state) :
    EngineSat F i m r (finishRecovery record outcome).run (fun _ => Recovered r L c₀) c := by
  refine h.sat_remove (fun _ => hs) fun d answer hd => ?_
  match answer with
  | .error error => exact sat_pure Recovered.stable hd
  | .ok _ =>
      refine sat_fire hd.closed.inv fun e answer he _ => ?_
      match answer with
      | .error error => exact sat_pure Recovered.stable (Recovered.stable he hd)
      | .ok _ => exact sat_pure Recovered.stable (Recovered.stable he hd)

/-- `recoverOwned` over published evidence that was just read. -/
lemma sat_recoverOwned {p : FakeSnapshot} (h : Orphan r L record c₀ c)
    (hp : record.applied = some p) (hn : Names r L p c) :
    EngineSat F i m r (recoverOwned (fakeBackend caps) record).run
      (fun _ => Recovered r L c₀) c := by
  have hr := h.recordOK
  have hrollback : RollbackOK r L record.before.data.state ⟨record.applied, record.before⟩ c :=
    ⟨⟨hr.before, hr.before_le, fun _ => .inr rfl⟩, fun q hq => by
      obtain rfl := Option.some.inj (hp.symm.trans hq)
      exact ⟨hr.evidence p hp, hn⟩, fun hnone => absurd (hp.symm.trans hnone) (by simp)⟩
  obtain rfl := hr.lease
  refine Fallible.sat_value (sat_compensate hr.identity h.working hrollback fun _ _ _ =>
    .inr (by rw [h.journal]; rfl)) fun answer d hd => ?_
  have hod := h.mutated hd.working
  match answer with
  | (.error error, pending) =>
      have hrd := hod.recordOK
      refine sat_journalWrite hod.closed.inv ⟨hrd.lease, hrd.resource, hrd.identity, hrd.before,
        hrd.before_le, hrd.base, fun q hq => (hd.rollback.evidence q hq).1⟩ hod.known
        fun e answer _ he => ?_
      have hre : Recovered r record.leaseId c₀ e := ⟨⟨he.inv, he.frame.lock.trans hod.closed.lock,
        he.frame.active.trans hod.closed.active⟩,
        fun L' hL' hf => he.fresh L' hL' (hod.fresh L' hL' hf)⟩
      match answer with
      | .error error => exact sat_pure Recovered.stable hre
      | .ok _ =>
          dsimp only [ExceptT.bindCont]
          split <;> exact sat_pure Recovered.stable hre
  | (.ok identity, pending) =>
      exact sat_finishRecovery hod fun ho => (hd.settled identity rfl).state ho

/-- `recover_record` of an orphan. -/
lemma sat_recoverRecord (h : Orphan r L record c₀ c) :
    EngineSat F i m r (recoverRecord (fakeBackend caps) record).run
      (fun _ => Recovered r L c₀) c := by
  have hremove : ∀ {d : Cell} {removal : Removal} (outcome : RecoveryOutcome),
      Orphan r L record c₀ d → removal ≠ .settled →
      EngineSat F i m r (do
        ask (journalRemove record.leaseId record.resource removal)
        return outcome : EngineResult FakeSnapshotData FakeIdentity RecoveryOutcome).run
        (fun _ => Recovered r L c₀) d := by
    intro d removal outcome hd hne
    refine hd.sat_remove (fun hr => absurd hr hne) fun e answer he => ?_
    match answer with
    | .error error => exact sat_pure Recovered.stable he
    | .ok _ => exact sat_pure Recovered.stable he
  refine sat_status h.recordOK.identity h.closed.inv fun d answer hd => ?_
  have hod := Orphan.stable hd h
  match answer with
  | .error error => exact sat_pure Recovered.stable hod.recovered
  | .ok .gone => exact hremove _ hod (by simp)
  | .ok .replaced => exact hremove _ hod (by simp)
  | .ok .ambiguous => exact sat_pure Recovered.stable hod.recovered
  | .ok .same =>
  refine sat_capture hod.recordOK.resource hod.closed.inv fun e answer he hread => ?_
  have hoe := Orphan.stable he hod
  match answer with
  | .error error =>
      dsimp only [ExceptT.bindCont]
      split
      · exact hremove _ hoe (by simp)
      · exact sat_pure Recovered.stable hoe.recovered
      · rename_i heq
        exact absurd heq (by simp)
  | .ok current =>
  have hs := hread current rfl
  have hof := (Cell.snapshot_eq_some hs).1
  refine sat_fire hoe.closed.inv fun u answer hu _ => ?_
  have hou := Orphan.stable hu hoe
  match answer with
  | .error error => exact sat_pure Recovered.stable hou.recovered
  | .ok _ =>
  dsimp only [ExceptT.bindCont]
  split
  · rename_i heq
    exact sat_finishRecovery hou fun ho => hu.state_of_read hs hoe.recordOK.before heq ho
  split
  · rename_i hany
    obtain ⟨p, hp, hown⟩ := (Option.any_eq_true _ _).mp hany
    rw [fakeBackend_ownsCurrent,
      fakeBackend_provesCurrent (hoe.recordOK.evidence p hp).of hof] at hown
    subst hown
    exact sat_recoverOwned hou hp (Names.stable hu fun _ => hs)
  · exact sat_pure Recovered.stable hou.recovered

/-- `recover_for_resource` of an orphan. -/
lemma sat_recoverForResource {owner : String} (h : Orphan r L record c₀ c) :
    EngineSat F i m r (recoverForResource (fakeBackend caps) owner record)
      (fun _ => Recovered r L c₀) c := by
  unfold recoverForResource
  split
  · exact sat_pure Recovered.stable h.recovered
  · refine sat_bind (sat_recoverRecord h) fun answer d hd => ?_
    split <;> exact sat_pure Recovered.stable hd

end Osdns
