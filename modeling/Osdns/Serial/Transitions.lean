import Osdns.Serial.LiveRecord

/-!
# Transitions of a live record

The specifications of `persistLive`, `retainCompensation`, `prepareLive`, `resolveLive`,
`commitVerified` and `applyOverlay` on one resource: whatever fails, they leave a live record in
`LiveOK`.
-/

namespace Osdns

open Interaction
open Interaction.Fallible (ask value attempt)
open Engine

variable {r : ResourceId} {L : LeaseId} {b : FakeState} {c c₀ d : Cell}
variable {F : Faults} {i : SessionId} {m : ManagerId} {caps : Capabilities} {α : Type}
variable {live : FakeLive} {record : FakeRecord}

/-! ## Holding a live record -/

/-- The cell and one live record in it keep their invariants; locks, registrations and removals
are as in `c₀`. -/
structure Holding (r : ResourceId) (L : LeaseId) (c₀ : Cell) (live : FakeLive) (c : Cell) :
    Prop where
  inv : CellInv r c
  live_eq : c.live L = some live
  ok : LiveOK r L live c
  frame : Framed c₀ c

lemma Holding.stable : Stable interference (Holding r L c₀ live) := fun h hc =>
  ⟨CellInv.stable h hc.inv, (congrFun h.live L).trans hc.live_eq, LiveOK.stable h hc.ok,
    Framed.stable h hc.frame⟩

lemma Holding.known (h : Holding r L c₀ live c) : Known i L c :=
  .inr (.inl (by rw [h.live_eq]; rfl))

/-- The live record after a failed or successful transition, over the same `before`. -/
def Held (r : ResourceId) (L : LeaseId) (c₀ : Cell) (before : FakeSnapshot) (c : Cell) : Prop :=
  ∃ live, Holding r L c₀ live c ∧ live.record.before = before

lemma Held.stable {before : FakeSnapshot} : Stable interference (Held r L c₀ before) :=
  fun h ⟨live, hc, hb⟩ => ⟨live, Holding.stable h hc, hb⟩

lemma Kept.logged (h : Kept L c) : Logged L b c := by
  rcases h with h | h
  · obtain ⟨removal, -, hmem⟩ := id h
    exact .inr ⟨⟨removal, hmem⟩, .inl h⟩
  · exact .inl h

lemma Holding.kept (h : Holding r L c₀ live c) (hi : Intact L c₀) : Kept L c := by
  rcases h.ok.logged with hl | ⟨⟨removal, hmem⟩, -⟩
  · exact .inr hl
  · refine .inl ⟨removal, fun hs => hi ?_, hmem⟩
    rw [← h.frame.removals, ← hs]
    exact hmem

/-! ## Publication -/

/-- A record that may become the record of a live record. -/
structure Candidate (r : ResourceId) (L : LeaseId) (record : FakeRecord) (state : FakeLiveState)
    (c : Cell) : Prop where
  state : StateOK r L record state c
  logged : Logged L record.before.data.state c
  record : RecordOK r L record c

lemma Candidate.stable {state : FakeLiveState} :
    Stable interference (Candidate r L record state) := fun h hc =>
  ⟨hc.state.shift h.shift, Logged.stable h hc.logged, hc.record.shift h.shift⟩

/-- A failed write leaves the record as logged as it was. -/
lemma Written.logged {success : Prop} (h : Written r L record success c d) (hc : Logged L b c) :
    Logged L b d := by
  rcases h.journal with hj | ⟨-, hj⟩
  · exact .inl (by rw [hj]; rfl)
  · unfold Logged Retired GivenUp
    rw [hj, h.frame.removals]
    exact hc.imp_right fun ⟨hr, hg⟩ => ⟨hr, hg.imp id fun ho => h.shift.state_of_ours ho⟩

/-- A candidate whose write succeeded. -/
lemma Written.published {state : FakeLiveState} {success : Prop}
    (h : Written r L record success c d) (hs : success) (hc : Candidate r L record state c) :
    LiveOK r L ⟨record, state⟩ d := by
  have hj : d.record L = some record := h.journal.resolve_right fun hn => hn.1 hs
  exact
    { record := hc.record.shift h.shift
      state := hc.state.shift h.shift
      logged := h.logged hc.logged
      same := fun _ record' h => by
        obtain rfl := Option.some.inj (hj.symm.trans h)
        rfl
      agree := fun _ _ => h.confirmed hs }

/-- A candidate whose write failed, kept in memory for a later write. -/
lemma Written.unpublished {state : FakeLiveState} {success : Prop}
    (h : Written r L record success c d) (hn : state.isRepair = false)
    (hc : Candidate r L record state c) : LiveOK r L ⟨record, .repair state⟩ d where
  record := hc.record.shift h.shift
  state := ⟨hn, hc.state.shift h.shift⟩
  logged := h.logged hc.logged
  same hr := absurd hr (by simp [LiveState.isRepair])
  agree _ hr := absurd hr (by simp [LiveState.isSettled])

lemma JournalRecord.settledState_not_repair (record : FakeRecord) :
    record.settledState.isRepair = false := by
  unfold JournalRecord.settledState
  split <;> rfl

lemma Written.framed {success : Prop} (h : Written r L record success c d) (hf : Framed c₀ c) :
    Framed c₀ d := hf.trans h.frame

/-- After `liveSet`. -/
lemma Holding.setLive (hinv : CellInv r c) (hok : LiveOK r L live c) (hf : Framed c₀ c) :
    Holding r L c₀ live (c.setLive L live) :=
  ⟨hinv.setLive hok.on, by simp [Cell.setLive], hok.setLive, hf.trans ⟨rfl, rfl, rfl⟩⟩

/-- `persist_live` of a record that fits the native state. -/
lemma sat_persistLive {ref : LiveRef} {candidate : FakeRecord} (href : ref = ⟨L, r⟩)
    (hinv : CellInv r c) (hframe : Framed c₀ c) (hknown : Known i L c)
    (hc : Candidate r L candidate candidate.settledState c) :
    EngineSat F i m r (persistLive ref candidate).run
      (fun answer d => Holding r L c₀ ⟨candidate,
        match answer with
        | .ok _ => candidate.settledState
        | .error _ => .repair candidate.settledState⟩ d) c := by
  refine sat_journalWrite hinv hc.record hknown fun d answer _ hw => ?_
  have hknown' : Known i L d := by
    rcases hknown with h | h | h
    · exact .inl h
    · exact .inr (.inl (by rw [hw.live]; exact h))
    · exact .inr (.inr (by
        rcases hw.journal with hj | ⟨-, hj⟩
        · rw [hj]
          rfl
        · rw [hj]
          exact h))
  match answer with
  | .ok _ =>
      refine sat_liveSet href hw.inv (hw.published rfl hc).on hknown'
        (.inr (.inr (hw.confirmed rfl))) fun e he => ?_
      exact sat_pure Holding.stable (.setLive (CellInv.stable he hw.inv)
        (LiveOK.stable he (hw.published rfl hc)) (Framed.stable he (hw.framed hframe)))
  | .error error =>
      refine sat_liveSet href hw.inv
        (hw.unpublished candidate.settledState_not_repair hc).on hknown' (.inr (.inl rfl)) fun e he => ?_
      exact sat_pure Holding.stable (.setLive (CellInv.stable he hw.inv)
        (LiveOK.stable he (hw.unpublished candidate.settledState_not_repair hc))
        (Framed.stable he (hw.framed hframe)))

/-- `retain_compensation` of a live record whose mutation may still stand. -/
lemma sat_retainCompensation {ref : LiveRef} {pending : PendingRollback FakeSnapshotData}
    {resume : FakeRecord} (href : ref = ⟨L, r⟩) (hinv : CellInv r c) (hframe : Framed c₀ c)
    (hlive : c.live L = some live) (hfree : live.state.blocked = false)
    (hrecord : RecordOK r L live.record c) (hresume : ResumeOK r L live.record pending resume c)
    (hlogged : Logged L live.record.before.data.state c) :
    EngineSat F i m r (retainCompensation ref pending resume).run
      (fun _ => Held r L c₀ live.record.before) c := by
  have hknown : ∀ {e : Cell}, Interference c e → Known i L e := fun he =>
    .inr (.inl (by rw [congrFun he.live L, hlive]; rfl))
  refine sat_liveGet href hinv hlive fun d hd => ?_
  refine sat_liveSet href (CellInv.stable hd hinv)
    ⟨⟨hrecord.lease, hrecord.resource, hrecord.identity⟩, hresume.resumed.on⟩ (hknown hd)
    (.inl fun old hold => ?_) fun e he => ?_
  · obtain rfl := Option.some.inj ((congrFun hd.live L ▸ hlive).symm.trans hold)
    exact hfree
  generalize hret : ({ live.record with
    phase := .prepared, applied := pending.evidence, desired := resume.desired } :
    FakeRecord) = retained
  have hbefore : retained.before = live.record.before := by rw [← hret]
  have hidentity : retained.identity = live.record.identity := by rw [← hret]
  replace he := interference.trans hd he
  have hshift : Shift e (e.setLive L ⟨retained, .compensating pending resume⟩) :=
    e.shift_setLive _
  have hcand : Candidate r L retained (.compensating pending resume)
      (e.setLive L ⟨retained, .compensating pending resume⟩) := by
    have hres := (hresume.shift he.shift).shift hshift
    refine ⟨⟨?_, hres.resumed, hres.applied, ?_, ?_, hres.identity.trans hidentity.symm⟩, ?_, ?_⟩
    · rw [hbefore]
      exact hres.rollback
    · rw [hbefore]
      exact hres.prepared
    · rw [hbefore]
      exact hres.before
    · rw [hbefore]
      exact (show Logged L _ e from Logged.stable he hlogged)
    · have hr := (hrecord.shift he.shift).shift hshift
      subst hret
      exact ⟨hr.lease, hr.resource, hr.identity, hr.before, hr.before_le, hr.base,
        fun p hp => (hres.rollback.evidence p hp).1⟩
  have hframe' : Framed c₀ (e.setLive L ⟨retained, .compensating pending resume⟩) :=
    Framed.stable he hframe |>.trans ⟨rfl, rfl, rfl⟩
  have hknown' : Known i L (e.setLive L ⟨retained, .compensating pending resume⟩) :=
    .inr (.inl (by simp [Cell.setLive]))
  refine sat_journalWrite ((CellInv.stable he hinv).setLive ⟨hcand.record.on, hcand.state.on⟩)
    hcand.record hknown'
    fun u answer _ hw => ?_
  cases answer with
  | ok _ =>
      refine sat_pure Held.stable ⟨_, ⟨hw.inv, ?_, hw.published rfl hcand, hw.framed hframe'⟩,
        hbefore⟩
      rw [hw.live]
      simp [Cell.setLive]
  | error error =>
      have hknownu : Known i L u := .inr (.inl (by rw [hw.live]; simp [Cell.setLive]))
      refine sat_liveSet href hw.inv (hw.unpublished rfl hcand).on hknownu (.inr (.inl rfl))
        fun v hv => ?_
      exact sat_pure Held.stable ⟨_, .setLive (CellInv.stable hv hw.inv)
        (LiveOK.stable hv (hw.unpublished rfl hcand)) (Framed.stable hv (hw.framed hframe')),
        hbefore⟩

/-- What `prepare_live` leaves, started in `c₁`. -/
def Prepared (r : ResourceId) (L : LeaseId) (c₀ c₁ : Cell) (before : FakeSnapshot)
    (candidate : FakeRecord) (answer : Except Error Unit) (c : Cell) : Prop :=
  match answer with
  | .ok _ => Holding r L c₀ ⟨candidate, .unmutated⟩ c ∧ c.record L = some candidate ∧ Shift c₁ c
  | .error _ => Held r L c₀ before c

lemma Prepared.stable {c₁ : Cell} {before : FakeSnapshot} {candidate : FakeRecord}
    {answer : Except Error Unit} :
    Stable interference (Prepared r L c₀ c₁ before candidate answer) := fun h hc => by
  cases answer with
  | ok _ =>
      exact ⟨Holding.stable h hc.1, by rw [h.record]; exact hc.2.1, hc.2.2.trans h.shift⟩
  | error _ => exact Held.stable h hc

/-- `prepare_live` over a settled live record. -/
lemma sat_prepareLive {ref : LiveRef} {candidate : FakeRecord} (href : ref = ⟨L, r⟩)
    (h : Holding r L c₀ live c) (hset : live.state.isSettled = true)
    (hc : Candidate r L candidate .unmutated c) :
    EngineSat F i m r (prepareLive ref candidate).run
      (Prepared r L c₀ c live.record.before candidate) c := by
  have hold : Candidate r L live.record live.state c :=
    ⟨h.ok.state, h.ok.logged, h.ok.record⟩
  have hfree : live.state.blocked = false := by
    cases hs : live.state <;> simp_all [LiveState.isSettled, LiveState.blocked]
  have hnr : live.state.isRepair = false := by
    cases hs : live.state <;> simp_all [LiveState.isSettled, LiveState.isRepair]
  refine sat_liveGet href h.inv h.live_eq fun d hd => ?_
  have hh := Holding.stable hd h
  have hcd := Candidate.stable hd hc
  refine sat_journalWrite hh.inv hcd.record hh.known fun e answer _ hw => ?_
  have hlive : e.live L = some live := by rw [hw.live, hh.live_eq]
  have hknown : Known i L e := .inr (.inl (by rw [hlive]; rfl))
  match answer with
  | .ok _ =>
      refine sat_liveSet href hw.inv (hw.published rfl hcd).on hknown
        (.inr (.inr (hw.confirmed rfl))) fun u hu => ?_
      refine sat_pure Prepared.stable ⟨.setLive (CellInv.stable hu hw.inv)
        (LiveOK.stable hu (hw.published rfl hcd)) (Framed.stable hu (hw.framed hh.frame)),
        ?_, ((hd.shift.trans hw.shift).trans hu.shift).trans (u.shift_setLive _)⟩
      change u.record L = _
      rw [hu.record]
      exact hw.journal.resolve_right fun hn => hn.1 rfl
  | .error error =>
      have holde : Candidate r L live.record live.state e := by
        have := Candidate.stable hd hold
        exact ⟨this.state.shift hw.shift, hw.logged this.logged, this.record.shift hw.shift⟩
      refine sat_journalWrite hw.inv holde.record hknown fun u answer _ hw' => ?_
      have hlive' : u.live L = some live := by rw [hw'.live, hlive]
      match answer with
      | .ok _ =>
          exact sat_pure Prepared.stable ⟨live, ⟨hw'.inv, hlive', hw'.published rfl holde,
            hw'.framed (hw.framed hh.frame)⟩, rfl⟩
      | .error error =>
          have hknown' : Known i L u := .inr (.inl (by rw [hlive']; rfl))
          refine sat_liveSet href hw'.inv (hw'.unpublished hnr holde).on hknown'
            (.inr (.inl rfl)) fun v hv => ?_
          exact sat_pure Prepared.stable ⟨_, .setLive (CellInv.stable hv hw'.inv)
            (LiveOK.stable hv (hw'.unpublished hnr holde))
            (Framed.stable hv (hw'.framed (hw.framed hh.frame))), rfl⟩

/-! ## Resolution -/

/-- What `resolve_live` leaves: a live record over the same `before`, with nothing outstanding
when it succeeds. -/
def Resolved (r : ResourceId) (L : LeaseId) (c₀ : Cell) (before : FakeSnapshot)
    (answer : Except Error Unit) (c : Cell) : Prop :=
  ∃ live, Holding r L c₀ live c ∧ live.record.before = before ∧
    (answer = .ok () → live.state.isSettled = true)

lemma Resolved.stable {before : FakeSnapshot} {answer : Except Error Unit} :
    Stable interference (Resolved r L c₀ before answer) :=
  fun h ⟨live, hc, hb⟩ => ⟨live, Holding.stable h hc, hb⟩

lemma Resolved.held {before : FakeSnapshot} {answer : Except Error Unit}
    (h : Resolved r L c₀ before answer c) : Held r L c₀ before c :=
  h.imp fun _ h => ⟨h.1, h.2.1⟩

/-- A live record that fails to be resolved. -/
lemma sat_unresolved {before : FakeSnapshot} {error : Error} (h : Holding r L c₀ live c)
    (hb : live.record.before = before) :
    EngineSat F i m r (pure (.error error)) (Resolved r L c₀ before) c :=
  sat_pure Resolved.stable ⟨live, h, hb, fun h => absurd h (by simp)⟩

/-- An unsettled live record survives a write of a record over the same `before`. -/
lemma Written.holding {candidate : FakeRecord} {success : Prop}
    (h : Written r L candidate success c d) (hc : Holding r L c₀ live c)
    (hb : candidate.before = live.record.before) (hn : live.state.isSettled = false) :
    Holding r L c₀ live d where
  inv := h.inv
  live_eq := by rw [h.live, hc.live_eq]
  frame := h.framed hc.frame
  ok :=
    { record := hc.ok.record.shift h.shift
      state := hc.ok.state.shift h.shift
      logged := h.logged hc.ok.logged
      same := fun hr record' hrec => by
        rcases h.journal with hj | ⟨-, hj⟩
        · obtain rfl := Option.some.inj (hj.symm.trans hrec)
          rw [hb]
        · exact hc.ok.same hr record' (hj.symm.trans hrec)
      agree := fun _ hs => absurd hs (by simp [hn]) }

/-- `finalizeVerified` of the live record in memory. -/
lemma sat_finalizeVerified {ref : LiveRef} {mutation : VerifiedMutation FakeSnapshotData}
    {current : Option FakeSnapshot} (href : ref = ⟨L, r⟩) (h : Holding r L c₀ live c)
    (hs : live.state = .verified mutation) :
    EngineSat F i m r (finalizeVerified (fakeBackend caps) ref live mutation current).run
      (Resolved r L c₀ live.record.before) c := by
  -- What follows the choice of `current`.
  have hrest : ∀ (current : FakeSnapshot) (c : Cell), Holding r L c₀ live c →
      EngineSat F i m r (do
        let status ← ask (resourceStatus .forward live.record.identity)
        if status ≠ .same ∨ (fakeBackend caps).ownsCurrent mutation.persist current = false then
          throw (.externalModification live.record.resource
            "verified mutation no longer names current native state")
        let candidate := { live.record with phase := .applied, applied := some mutation.persist }
        ask (journalWrite candidate)
        value (liveSet ref ⟨candidate, .committed⟩) :
          EngineResult FakeSnapshotData FakeIdentity Unit).run
        (Resolved r L c₀ live.record.before) c := by
    intro current c h
    refine sat_status h.ok.record.identity h.inv fun d answer hd => ?_
    have hh := Holding.stable hd h
    match answer with
    | .error error => exact sat_unresolved hh rfl
    | .ok status =>
    dsimp only [ExceptT.bindCont]
    split
    · exact sat_unresolved hh rfl
    have hstate := hh.ok.state
    rw [hs] at hstate
    generalize hcand : ({ live.record with
      phase := .applied, applied := some mutation.persist } : FakeRecord) = candidate
    have hb : candidate.before = live.record.before := by rw [← hcand]
    have hc : Candidate r L candidate .committed d := by
      subst hcand
      have hr := hh.ok.record
      exact ⟨⟨rfl, mutation.persist, rfl, hstate⟩, hh.ok.logged,
        ⟨hr.lease, hr.resource, hr.identity, hr.before, hr.before_le, hr.base, fun p hp => by
          obtain rfl := Option.some.inj hp
          exact hstate.issued⟩⟩
    refine sat_journalWrite hh.inv hc.record hh.known fun e answer _ hw => ?_
    match answer with
    | .error error =>
        exact sat_unresolved (hw.holding hh hb (by rw [hs]; rfl)) rfl
    | .ok _ =>
        have hknown : Known i L e := .inr (.inl (by rw [hw.live, hh.live_eq]; rfl))
        refine sat_liveSet href hw.inv (hw.published rfl hc).on hknown
          (.inr (.inr (hw.confirmed rfl))) fun u hu => ?_
        exact sat_pure Resolved.stable ⟨_, .setLive (CellInv.stable hu hw.inv)
          (LiveOK.stable hu (hw.published rfl hc)) (Framed.stable hu (hw.framed hh.frame)), hb,
          fun _ => rfl⟩
  cases current with
  | some current => exact hrest current c h
  | none =>
      refine sat_readback h.ok.record.resource h.inv fun d answer hd _ => ?_
      match answer with
      | .error error => exact sat_unresolved (Holding.stable hd h) rfl
      | .ok current => exact hrest current d (Holding.stable hd h)

/-- The start of a mutation over a live record that admits one. -/
lemma Holding.working (h : Holding r L c₀ live c) (hfree : live.state.blocked = false) :
    Working r i L live.record.before.data.state c c where
  inv := h.inv
  backed := ⟨fun ho => (h.ok.record.base ho).symm, h.ok.same (by
    cases hs : live.state <;> simp_all [LiveState.isRepair, LiveState.blocked])⟩
  unblocked m' live' _ hl := by
    obtain rfl := Option.some.inj (h.live_eq.symm.trans hl)
    exact hfree
  known := h.known
  memory := .refl c
  later := le_rfl
  issued _ hp := hp
  moved := .inl (.refl c)
  fresh _ _ h := h

lemma Working.logged {c₁ : Cell} (h : Working r i L b c₁ c) (hl : Logged L b c₁) :
    Logged L b c := by
  rcases h.moved with hs | hk
  · unfold Logged Retired GivenUp
    rw [h.memory.record, h.memory.removals]
    exact hl.imp_right fun ⟨hr, hg⟩ => ⟨hr, hg.imp id fun ho => hs.state_of_ours ho⟩
  · exact hk.logged

/-- The live record in memory after a finished mutation, in a new state. -/
lemma Working.liveOK {c₁ : Cell} {state : FakeLiveState}
    (h : Working r i L live.record.before.data.state c₁ c) (hok : LiveOK r L live c₁)
    (hfree : live.state.isRepair = false) (hstate : StateOK r L live.record state c)
    (hset : state.isSettled = true → live.state.isSettled = true) :
    LiveOK r L ⟨live.record, state⟩ c where
  record := hok.record.working rfl h
  state := hstate
  logged := h.logged hok.logged
  same _ record' hrec := by
    rw [h.memory.record] at hrec
    exact hok.same hfree record' hrec
  agree hr hs := by
    have hmem := h.memory
    rw [hmem.confirmed]
    refine hok.agree (fun hd => hr ?_) (hset hs)
    unfold Retired at hd ⊢
    rwa [hmem.removals]

/-- The record a settled rollback resumes with may be published. -/
lemma ResumeOK.candidate {pending : PendingRollback FakeSnapshotData} {resume : FakeRecord}
    {identity : Option FakeSnapshot} (h : ResumeOK r L record pending resume c)
    (hr : RecordOK r L resume d) (hl : Logged L record.before.data.state d)
    (hset : Settled r L record.before.data.state pending.target identity d) :
    Candidate r L (resumeWith resume identity) (resumeWith resume identity).settledState d := by
  have hb : resume.before.data.state = record.before.data.state := by rw [h.before]
  have hrecord : RecordOK r L { resume with applied := identity } d :=
    ⟨hr.lease, hr.resource, hr.identity, hr.before, hr.before_le, hr.base, fun p hp => by
      rw [hb]
      exact (hset.held p hp).1⟩
  have hlost : identity = none → ¬ Ours L d := hset.lost
  unfold resumeWith
  cases hphase : resume.phase with
  | prepared =>
      simp only [reduceCtorEq, if_false]
      refine ⟨?_, hb ▸ hl, hr⟩
      simp only [JournalRecord.settledState, hphase, reduceCtorEq, if_false]
      intro ho
      rw [hset.state ho, h.prepared hphase, hb]
  | applied =>
      simp only [if_true]
      cases identity with
      | none =>
          refine ⟨fun ho => absurd ho (hlost rfl), hb ▸ hl, ?_⟩
          exact ⟨hr.lease, hr.resource, hr.identity, hr.before, hr.before_le, hr.base,
            fun p hp => absurd hp (by simp)⟩
      | some p =>
          obtain ⟨hi, hn, hs⟩ := hset.held p rfl
          refine ⟨⟨rfl, p, rfl, ?_, hn, ?_⟩, hb ▸ hl, ?_⟩
          · rw [show ({ resume with applied := some p, phase := .applied } : FakeRecord).before =
              record.before from h.before]
            exact hi
          · rw [hs]
            exact h.applied hphase
          · exact ⟨hr.lease, hr.resource, hr.identity, hr.before, hr.before_le, hr.base,
              hrecord.evidence⟩

lemma resumeWith_before (resume : FakeRecord) (identity : Option FakeSnapshot) :
    (resumeWith resume identity).before = resume.before := by
  unfold resumeWith
  split <;> rfl

lemma JournalRecord.settledState_isSettled (record : FakeRecord) :
    record.settledState.isSettled = true := by
  unfold JournalRecord.settledState
  split <;> rfl

/-- `resolveCompensation`: the rollback is retried, and what is left of it retained. -/
lemma sat_resolveCompensation {ref : LiveRef} {pending : PendingRollback FakeSnapshotData}
    {resume : FakeRecord} (href : ref = ⟨L, r⟩) (h : Holding r L c₀ live c)
    (hs : live.state = .compensating pending resume)
    (hk : ∀ p, pending.evidence = some p → c.snapshot r = some p → Kept L c) :
    EngineSat F i m r (resolveCompensation (fakeBackend caps) ref live pending resume).run
      (Resolved r L c₀ live.record.before) c := by
  have hfree : live.state.blocked = false := by rw [hs]; rfl
  have hres : ResumeOK r L live.record pending resume c := by
    have := h.ok.state
    rwa [hs] at this
  have hb : resume.before.data.state = live.record.before.data.state := by rw [hres.before]
  have hw₀ : Working r i L live.record.before.data.state c c := h.working hfree
  subst href
  refine Fallible.sat_value (sat_compensate h.ok.record.identity hw₀ hres.rollback hk)
    fun answer d hd => ?_
  have hw := hd.working
  have hframe : Framed c₀ d := h.frame.trans hw.memory.framed
  have hlive : d.live L = some live := by rw [hw.memory.live, h.live_eq]
  have hrecord : RecordOK r L resume d := hres.resumed.working hb hw
  match answer with
  | (.ok identity, rollback) =>
      have hcand := hres.candidate hrecord (hw.logged h.ok.logged) (hd.settled identity rfl)
      refine (sat_persistLive rfl hw.inv hframe hw.known hcand).mono fun answer e he => ?_
      refine ⟨_, he, (resumeWith_before resume identity).trans hres.before, fun ha => ?_⟩
      subst ha
      exact JournalRecord.settledState_isSettled _
  | (.error error, rollback) =>
      have hresume : ResumeOK r L live.record rollback resume d :=
        ⟨hd.rollback, hrecord, by rw [hd.target_eq]; exact hres.applied,
          by rw [hd.target_eq]; exact hres.prepared, hres.before, hres.identity⟩
      refine Fallible.sat_attempt (sat_retainCompensation rfl hw.inv hframe hlive hfree
        (h.ok.record.working rfl hw) hresume (hw.logged h.ok.logged)) fun _ e he => ?_
      obtain ⟨live', hh, hb'⟩ := he
      exact sat_unresolved hh hb'

/-- The part of `resolve_live` after a journal repair. -/
lemma sat_resolveState {ref : LiveRef} (caps : Capabilities) (current : Option FakeSnapshot)
    (href : ref = ⟨L, r⟩)
    (h : Holding r L c₀ live c) (hn : live.state.isRepair = false)
    (hk : ∀ pending resume, live.state = .compensating pending resume →
      ∀ p, pending.evidence = some p → c.snapshot r = some p → Kept L c) :
    EngineSat F i m r (match live.state with
      | .committed => return
      | .unmutated => return
      | .prepared =>
          throw (.externalModification live.record.resource
            "prepared intent has no verified applied mutation")
      | .verified mutation => finalizeVerified (fakeBackend caps) ref live mutation current
      | .compensating pending resume =>
          resolveCompensation (fakeBackend caps) ref live pending resume
      | .repair _ => throw (.panicked "journal repair is resolved first") :
        EngineResult FakeSnapshotData FakeIdentity Unit).run
      (Resolved r L c₀ live.record.before) c := by
  match hs : live.state with
  | .committed => exact sat_pure Resolved.stable ⟨live, h, rfl, fun _ => by rw [hs]; rfl⟩
  | .unmutated => exact sat_pure Resolved.stable ⟨live, h, rfl, fun _ => by rw [hs]; rfl⟩
  | .prepared =>
      have := h.ok.state
      rw [hs] at this
      exact this.elim
  | .verified mutation => exact sat_finalizeVerified href h hs
  | .compensating pending resume => exact sat_resolveCompensation href h hs (hk pending resume hs)
  | .repair next =>
      rw [hs] at hn
      exact absurd hn (by simp [LiveState.isRepair])

/-- `resolve_live`.  A rollback that is retried directly changes the native state, so its
evidence may be current only while the record of the lease is kept. -/
lemma sat_resolveLive {ref : LiveRef} {current : Option FakeSnapshot} (href : ref = ⟨L, r⟩)
    (h : Holding r L c₀ live c)
    (hk : ∀ pending resume, live.state = .compensating pending resume →
      ∀ p, pending.evidence = some p → c.snapshot r = some p → Kept L c) :
    EngineSat F i m r (resolveLive (fakeBackend caps) ref current).run
      (Resolved r L c₀ live.record.before) c := by
  unfold resolveLive
  refine sat_liveGet href h.inv h.live_eq fun d hd => ?_
  have hh := Holding.stable hd h
  have hk' : ∀ pending resume, live.state = .compensating pending resume →
      ∀ p, pending.evidence = some p → d.snapshot r = some p → Kept L d := by
    intro pending resume hs p hp hcur
    have hres : ResumeOK r L live.record pending resume c := by
      have := h.ok.state
      rwa [hs] at this
    have hle := (hres.rollback.evidence p hp).1.generation_le
    exact Kept.stable hd (hk pending resume hs p hp (hd.shift.snapshot hle hcur).1)
  obtain ⟨record, state⟩ := live
  cases state with
  | repair next =>
      obtain ⟨hnext, hstate⟩ := hh.ok.state
      have hcand : Candidate r L record next d := ⟨hstate, hh.ok.logged, hh.ok.record⟩
      refine sat_journalWrite hh.inv hcand.record hh.known fun e answer _ hw => ?_
      match answer with
      | .error error => exact sat_unresolved (hw.holding hh rfl rfl) rfl
      | .ok _ =>
          have hknown : Known i L e := .inr (.inl (by rw [hw.live, hh.live_eq]; rfl))
          refine sat_liveSet href hw.inv (hw.published rfl hcand).on hknown
            (.inr (.inr (hw.confirmed rfl))) fun u hu => ?_
          have hhu : Holding r L c₀ ⟨record, next⟩ (u.setLive L ⟨record, next⟩) :=
            .setLive (CellInv.stable hu hw.inv) (LiveOK.stable hu (hw.published rfl hcand))
              (Framed.stable hu (hw.framed hh.frame))
          have hkept : Kept L (u.setLive L ⟨record, next⟩) := .inr (by
            change (u.record L).isSome = true
            rw [hu.record, hw.journal.resolve_right fun hn => hn.1 rfl]
            rfl)
          cases next <;> exact sat_resolveState caps current href hhu hnext fun _ _ _ _ _ _ => hkept
  | committed => exact sat_resolveState caps current href hh rfl hk'
  | unmutated => exact sat_resolveState caps current href hh rfl hk'
  | prepared => exact sat_resolveState caps current href hh rfl hk'
  | verified mutation => exact sat_resolveState caps current href hh rfl hk'
  | compensating pending resume => exact sat_resolveState caps current href hh rfl hk'

/-! ## Mutation of a live record -/

/-- `commit_verified` of a mutation whose live record is kept prepared. -/
lemma sat_commitVerified {ref : LiveRef} {mutation : VerifiedMutation FakeSnapshotData}
    (href : ref = ⟨L, r⟩) (hinv : CellInv r c) (hframe : Framed c₀ c)
    (hlive : c.live L = some live) (hok : LiveOK r L ⟨live.record, .verified mutation⟩ c) :
    EngineSat F i m r (commitVerified (fakeBackend caps) ref mutation).run
      (Resolved r L c₀ live.record.before) c := by
  refine sat_liveGet href hinv hlive fun d hd => ?_
  have hknown : Known i L d := .inr (.inl (by rw [congrFun hd.live L, hlive]; rfl))
  refine sat_liveSet href (CellInv.stable hd hinv) hok.on hknown (.inr (.inl rfl)) fun e he => ?_
  replace he := interference.trans hd he
  have hh : Holding r L c₀ ⟨live.record, .verified mutation⟩
      (e.setLive L ⟨live.record, .verified mutation⟩) :=
    .setLive (CellInv.stable he hinv) (LiveOK.stable he hok) (Framed.stable he hframe)
  have hres : EngineSat F i m r (resolveLive (fakeBackend caps) ref none).run
      (Resolved r L c₀ (⟨live.record, .verified mutation⟩ : FakeLive).record.before) _ :=
    sat_resolveLive href hh fun _ _ hs => absurd hs (by simp)
  exact hres

/-- A failed overlay leaves its live record in a state that fits. -/
lemma Residue.overlay {expected : FakeSnapshot} {residue : MutationResidue FakeSnapshotData}
    (h : Residue r L record.before.data.state expected residue c) (hr : RecordOK r L record c)
    (hphase : record.phase = .prepared) (hb : expected.data.state = record.before.data.state) :
    StateOK r L record (overlayResidue record residue) c := by
  cases residue with
  | unchanged =>
      intro ho
      rw [← hb]
      exact (Cell.snapshot_eq_some (h ho)).2.1
  | restored identity =>
      intro ho
      rw [← hb]
      exact Settled.state h ho
  | pending pending =>
      obtain ⟨hp, rfl⟩ := h
      exact ⟨hp, hr, fun ha => absurd ha (by simp [hphase]), fun _ => hb, rfl, rfl⟩

/-- `apply_overlay` over a state that is the lease's latest evidence or none of its writes. -/
lemma sat_applyOverlay {ref : LiveRef} {expected before : FakeSnapshot} (href : ref = ⟨L, r⟩)
    (h : Holding r L c₀ live c) (hset : live.state.isSettled = true)
    (hk : Logged L before.data.state c)
    (hrecord : RecordOK r L { live.record with
      before := before, phase := .prepared, applied := none } c)
    (he : Issued r L before.data.state expected c) (hn : Names r L expected c)
    (hb : expected.data.state = before.data.state) :
    EngineSat F i m r (applyOverlay (fakeBackend caps) ref expected before)
      (fun _ d => ∃ live, Holding r L c₀ live d) c := by
  have hstable : Stable interference fun d => ∃ live, Holding r L c₀ live d :=
    fun h hl => hl.imp fun _ hl => Holding.stable h hl
  have hdone : ∀ {e : Cell} {live : FakeLive} (outcome : ReconcileOutcome),
      Holding r L c₀ live e → EngineSat F i m r (pure outcome)
        (fun _ d => ∃ live, Holding r L c₀ live d) e :=
    fun outcome h => sat_pure hstable ⟨_, h⟩
  unfold applyOverlay
  refine sat_liveGet href h.inv h.live_eq fun d₁ h₁ => ?_
  generalize hcandidate : ({ live.record with
    before := before, phase := .prepared, applied := none } : FakeRecord) = candidate at hrecord
  have hbefore : candidate.before = before := by rw [← hcandidate]
  subst hbefore
  have hcand : Candidate r L candidate .unmutated d₁ := by
    refine ⟨fun ho => ?_, Logged.stable h₁ hk, RecordOK.stable h₁ hrecord⟩
    rw [← hb]
    exact (Cell.snapshot_eq_some (Names.stable h₁ hn ho)).2.1
  have hres : candidate.identity.resource = r := hrecord.identity
  refine sat_bind (sat_prepareLive href (Holding.stable h₁ h) hset hcand) fun answer d₂ h₂ => ?_
  cases answer with
  | error error => exact hdone _ h₂.choose_spec.1
  | ok _ =>
  obtain ⟨h₂, hjournal, hshift⟩ := h₂
  have hshift₂ : Shift c d₂ := h₁.shift.trans hshift
  refine sat_fire h₂.inv fun d₃ answer h₃ _ => ?_
  have hh₃ := Holding.stable h₃ h₂
  cases answer with
  | error error => exact hdone _ hh₃
  | ok _ =>
  refine sat_liveGet href hh₃.inv hh₃.live_eq fun d₄ h₄ => ?_
  have hh₄ := Holding.stable h₄ hh₃
  refine sat_liveSet href hh₄.inv ⟨hh₄.ok.record.on, trivial⟩ hh₄.known
    (.inl fun old hold => ?_) fun d₅ h₅ => ?_
  · obtain rfl := Option.some.inj (hh₄.live_eq.symm.trans hold)
    rfl
  have hh₅ := Holding.stable h₅ hh₄
  have h₂₅ : Interference d₂ d₅ := interference.trans h₃ (interference.trans h₄ h₅)
  set d₆ := d₅.setLive L ⟨candidate, .prepared⟩ with hd₆
  have hshift₆ : Shift c d₆ := (hshift₂.trans h₂₅.shift).trans (d₅.shift_setLive _)
  have hok₆ : LiveOK r L ⟨candidate, .unmutated⟩ d₆ := hh₅.ok.setLive
  have hframe₆ : Framed c₀ d₆ := hh₅.frame.trans ⟨rfl, rfl, rfl⟩
  have hlive₆ : d₆.live L = some ⟨candidate, .prepared⟩ := by simp [hd₆, Cell.setLive]
  have hkept : Kept L d₆ := .inr (by
    change (d₅.record L).isSome = true
    rw [h₂₅.record, hjournal]
    rfl)
  have hworking : Working r i L candidate.before.data.state d₆ d₆ :=
    { inv := hh₅.inv.setLive ⟨hh₄.ok.record.on, trivial⟩
      backed := ⟨fun ho => (hok₆.record.base ho).symm, hok₆.same rfl⟩
      unblocked := fun _ live' _ hl => by
        obtain rfl := Option.some.inj (hlive₆.symm.trans hl)
        rfl
      known := .inr (.inl (by rw [hlive₆]; rfl))
      memory := .refl d₆
      later := le_rfl
      issued := fun _ hp => hp
      moved := .inl (.refl d₆)
      fresh := fun _ _ h => h }
  refine sat_bind (sat_mutateAndVerify hres (by rw [href]) hworking hkept (he.shift hshift₆)
    (hn.shift hshift₆)) fun answer d₇ h₇ => ?_
  obtain ⟨hw, hanswer⟩ := h₇
  have hlive₇ : d₇.live L = some ⟨candidate, .prepared⟩ := by rw [hw.memory.live, hlive₆]
  have hframe₇ : Framed c₀ d₇ := hframe₆.trans hw.memory.framed
  cases answer with
  | ok mutation =>
      have hok₇ : LiveOK r L ⟨candidate, .verified mutation⟩ d₇ :=
        hw.liveOK hok₆ rfl hanswer fun hs => absurd hs (by simp [LiveState.isSettled])
      refine sat_bind (sat_commitVerified href hw.inv hframe₇ hlive₇ hok₇) fun answer d₈ h₈ => ?_
      obtain ⟨live', hl', -, -⟩ := h₈
      cases answer with
      | error error => exact hdone _ hl'
      | ok _ => exact sat_fire hl'.inv fun d₉ _ h₉ _ => hdone _ (Holding.stable h₉ hl')
  | error failure =>
      have hok₇ : LiveOK r L ⟨candidate, overlayResidue candidate failure.residue⟩ d₇ := by
        have hphase : candidate.phase = .prepared := by rw [← hcandidate]
        have hstate := hanswer.overlay (hok₆.record.working rfl hw) hphase hb
        cases hresidue : failure.residue with
        | unchanged => exact hw.liveOK hok₆ rfl (hresidue ▸ hstate) fun _ => rfl
        | restored _ => exact hw.liveOK hok₆ rfl (hresidue ▸ hstate) fun _ => rfl
        | pending _ =>
            exact hw.liveOK hok₆ rfl (hresidue ▸ hstate) fun hs =>
              absurd hs (by simp [overlayResidue, LiveState.isSettled])
      refine sat_liveGet href hw.inv hlive₇ fun d₈ h₈ => ?_
      refine sat_liveSet href (CellInv.stable h₈ hw.inv) hok₇.on
        (Known.stable h₈ hw.known) (.inl fun old hold => ?_) fun d₉ h₉ => ?_
      · obtain rfl := Option.some.inj (((congrFun h₈.live L).trans hlive₇).symm.trans hold)
        rfl
      have h₇₉ := interference.trans h₈ h₉
      exact hdone _ (.setLive (CellInv.stable h₇₉ hw.inv) (LiveOK.stable h₇₉ hok₇)
        (Framed.stable h₇₉ hframe₇))

end Osdns
