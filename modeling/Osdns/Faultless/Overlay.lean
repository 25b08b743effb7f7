import Osdns.Faultless.Leases
import Osdns.Quiet.Mutation

/-!
# Overlays without faults and without interference

What a reconciliation pass does on the cell of its resource when no call fails.  Whatever is
outstanding on the live record is resolved when it can be resolved over the current snapshot
(`LiveState.Resolves`); otherwise the pass changes nothing, and the record can be resolved as little
as before.  An overlay then merges the plan onto the state it finds and publishes the record.

Unlike `Faultless/Restore.lean` nothing is assumed about who wrote the native state.
-/

namespace Osdns

open Interaction
open Interaction.Fallible (ask value attempt)
open Engine

variable {r : ResourceId} {L : LeaseId} {ctx : Context} {c d : Cell} {caps : Capabilities}
variable {live : FakeLive} {record resume : FakeRecord} {p q before : FakeSnapshot}
variable {pending : PendingRollback FakeSnapshotData}

/-! ## What can be resolved -/

/-- The rollback can be carried out over the snapshot `p`, or there is nothing to do. -/
def PendingRollback.Applies (p : FakeSnapshot) (pending : PendingRollback FakeSnapshotData) : Prop :=
  pending.evidence = some p ∨ pending.target.data.state = p.data.state

/-- What is outstanding can be finished over the snapshot `p`. -/
def LiveState.Resolves (p : FakeSnapshot) : FakeLiveState → Prop
  | .committed => True
  | .unmutated => True
  | .prepared => False
  | .verified mutation => mutation.persist = p
  | .compensating pending _ => pending.Applies p
  | .repair next => next.Resolves p

/-- A rollback is outstanding. -/
def LiveState.rolls : FakeLiveState → Bool
  | .compensating _ _ => true
  | .repair next => next.rolls
  | _ => false

/-- The plan a record asks for once nothing is outstanding. -/
def LiveState.plan (record : FakeRecord) : FakeLiveState → NormalizedConfig
  | .compensating _ resume => resume.desired
  | .repair next => next.plan record
  | _ => record.desired

/-- The plan of a live record. -/
def LiveRecord.plan (live : FakeLive) : NormalizedConfig := live.state.plan live.record

/-- A snapshot of the resource with content that expresses the plan. -/
structure PlatformSnapshot.Fits (r : ResourceId) (plan : NormalizedConfig) (q : FakeSnapshot) :
    Prop where
  of : q.Of r
  fits : stateMatches q.data.state plan = true

/-- A rollback of the resource, and the record that takes over when it is done. -/
structure PendingRollback.Sound (r : ResourceId) (L : LeaseId) (record : FakeRecord)
    (pending : PendingRollback FakeSnapshotData) (resume : FakeRecord) : Prop where
  target : pending.target.Of r
  evidence : ∀ q, pending.evidence = some q → q.Of r
  resumed : resume.On r L
  before : resume.before = record.before
  identity : resume.identity = record.identity
  applied : resume.phase = .applied → stateMatches pending.target.data.state resume.desired = true

/-- What a runtime state refers to is about the resource of its record. -/
def LiveState.Sound (r : ResourceId) (L : LeaseId) (record : FakeRecord) : FakeLiveState → Prop
  | .committed => ∃ q, record.applied = some q ∧ q.Fits r record.desired
  | .unmutated => True
  | .prepared => False
  | .verified mutation => mutation.persist.Fits r record.desired
  | .compensating pending resume => pending.Sound r L record resume
  | .repair next => next.isRepair = false ∧ next.Sound r L record

lemma StateOK.sound {state : FakeLiveState} (h : StateOK r L record state c) :
    state.Sound r L record := by
  induction state with
  | committed =>
      obtain ⟨-, q, hq, he⟩ := h
      exact ⟨q, hq, he.issued.of, he.expresses⟩
  | unmutated => trivial
  | prepared => exact h
  | verified mutation => exact ⟨(Expresses.issued h).of, Expresses.expresses h⟩
  | compensating pending resume =>
      have hres : ResumeOK r L record pending resume c := h
      exact ⟨hres.rollback.target.of, fun q hq => (hres.rollback.evidence q hq).1.of,
        hres.resumed.on, hres.before, hres.identity, hres.applied⟩
  | repair next ih => exact ⟨h.1, ih h.2⟩

/-- The live record is in memory, its resource is the one it was made for, and the snapshot `p` is
current. -/
structure Enlisted (r : ResourceId) (L : LeaseId) (live : FakeLive) (p : FakeSnapshot) (c : Cell) :
    Prop where
  live_eq : c.live L = some live
  on : live.record.On r L
  before : live.record.before.Of r
  status : c.resourceStatus live.record.identity = .ok .same
  snapshot : c.snapshot r = some p
  sound : live.state.Sound r L live.record

namespace Enlisted

lemma of (h : Enlisted r L live p c) : p.Of r := (Cell.snapshot_eq_some h.snapshot).1

lemma alike (h : Enlisted r L live p c) (hd : Alike c d) : Enlisted r L live p d :=
  ⟨(congrFun hd.live L).trans h.live_eq, h.on, h.before, (hd.status _).trans h.status,
    hd.snapshot.trans h.snapshot, h.sound⟩

end Enlisted

/-- The live record of a lease is enlisted over whatever the native state is. -/
lemma LiveOK.enlisted (h : LiveOK r L live c) (hlive : c.live L = some live)
    (hs : c.resourceStatus live.record.identity = .ok .same) : ∃ p, Enlisted r L live p c := by
  obtain ⟨-, state, hstate⟩ := Cell.status_same hs
  have hp : c.snapshot r = some ⟨.fake, r, ⟨state, c.generation⟩⟩ := by
    rw [Cell.snapshot, hstate, Option.map_some]
  exact ⟨_, hlive, h.record.on, h.record.before, hs, hp, h.state.sound⟩

/-! ## Compensation -/

/-- What `compensate` does with a rollback of the resource: it is carried out when it applies, and
otherwise nothing happens. -/
def Carried (L : LeaseId) (r : ResourceId) (pending : PendingRollback FakeSnapshotData)
    (p : FakeSnapshot) (c : Cell)
    (answer : Except Error (Option FakeSnapshot) × PendingRollback FakeSnapshotData) (d : Cell) :
    Prop :=
  (pending.Applies p ∧ c.Rolled L d ∧ ∃ identity q, answer.1 = .ok identity ∧
      d.snapshot r = some q ∧ q.data.state = pending.target.data.state ∧
      ∀ s, identity = some s → s = q) ∨
    (¬ pending.Applies p ∧ d = c ∧ ∃ error, answer = (.error error, pending))

lemma stops_compensateAny {identity : FakeResourceIdentity} (hr : identity.resource = r)
    (hs : c.resourceStatus identity = .ok .same) (hp : c.snapshot r = some p)
    (ht : pending.target.Of r) (he : ∀ q, pending.evidence = some q → q.Of r) :
    EngineStops ctx r (compensate (fakeBackend caps) L identity pending none)
      (Carried L r pending p c) c := by
  have hof := (Cell.snapshot_eq_some hp).1
  by_cases hnames : pending.evidence = some p
  · refine (stops_compensate hr hs hp ht (.inl hnames)).mono fun answer d hd => .inl ⟨.inl hnames, ?_⟩
    obtain ⟨hrolled, q, ha, hq, hstate⟩ := hd
    exact ⟨hrolled, some q, q, ha, hq, hstate, fun s h => (Option.some.inj h).symm⟩
  have hstale : ∀ e, pending.evidence = some e → (fakeBackend caps).provesCurrent e p = false :=
    fun e h => Bool.eq_false_iff.mpr fun hproves =>
      hnames (by rw [h, (fakeBackend_provesCurrent (he e h) hof).mp hproves])
  refine stops_status hr hs ?_
  simp only [ne_eq, not_true_eq_false, ↓reduceIte]
  refine stops_readback hr hp ?_
  by_cases hsame : p.data.state = pending.target.data.state
  · have hequal : (fakeBackend caps).equivalent p pending.target = true :=
      (fakeBackend_equivalent hof ht).mpr hsame
    have hnone : pending.evidence.filter ((fakeBackend caps).ownsCurrent · p) = none := by
      rw [Option.filter_eq_none_iff]
      exact fun e h => by simp [hstale e h]
    simp only [hequal, ↓reduceIte, hnone]
    refine .inl ⟨.inr hsame.symm, .inl rfl, _, p, rfl, hp, hsame, fun s h => ?_⟩
    split at h
    · rename_i howns
      obtain rfl := Option.some.inj h
      exact (fakeBackend_provesCurrent ht hof).mp howns
    · exact absurd h (by simp)
  · have hdiffers : (fakeBackend caps).equivalent p pending.target = false :=
      Bool.eq_false_iff.mpr fun h => hsame ((fakeBackend_equivalent hof ht).mp h)
    have hno : ¬ pending.Applies p := fun h => h.elim hnames fun h => hsame h.symm
    simp only [hdiffers, Bool.false_eq_true, ↓reduceIte]
    cases hevidence : pending.evidence with
    | none => exact .inr ⟨hno, rfl, _, rfl⟩
    | some e =>
        simp only [fakeBackend_ownsCurrent, hstale e hevidence, ↓reduceIte]
        exact .inr ⟨hno, rfl, _, rfl⟩

/-! ## Resolution -/

/-- A live record over the same `before` and for the same plan, with nothing outstanding.  It is the
old one if nothing was, and only a rollback changes the native state. -/
def Clears (r : ResourceId) (L : LeaseId) (live : FakeLive) (p : FakeSnapshot) (d : Cell) : Prop :=
  ∃ live' q, Enlisted r L live' q d ∧ live'.state.isSettled = true ∧ live'.plan = live.plan ∧
    live'.record.before = live.record.before ∧ (live.state.isSettled = true → live' = live) ∧
      (live.state.rolls = false → q = p)

/-- A live record for the same plan that can be resolved as little as before, over the same native
state. -/
def Balks (r : ResourceId) (L : LeaseId) (live : FakeLive) (p : FakeSnapshot) (d : Cell) : Prop :=
  ∃ live', Enlisted r L live' p d ∧ live'.plan = live.plan ∧ live'.state.isPrepared = false ∧
    ¬ live'.state.Resolves p

/-- What `resolve_live` does: it settles the live record when that can be done, and otherwise
answers with an error. -/
def Resolution (r : ResourceId) (L : LeaseId) (live : FakeLive) (p : FakeSnapshot)
    (answer : Except Error Unit) (d : Cell) : Prop :=
  (live.state.Resolves p ∧ answer = .ok () ∧ Clears r L live p d) ∨
    (¬ live.state.Resolves p ∧ (∃ error, answer = .error error) ∧ Balks r L live p d)

lemma Cell.setLive_live (c : Cell) (live : FakeLive) : (c.setLive L live).live L = some live :=
  Function.update_self ..

/-- The record with the evidence `q` of a verified mutation. -/
def JournalRecord.provenBy (record : FakeRecord) (q : FakeSnapshot) : FakeRecord :=
  { record with phase := .applied, applied := some q }

lemma JournalRecord.On.provenBy (h : record.On r L) (q : FakeSnapshot) : (record.provenBy q).On r L :=
  ⟨h.lease, h.resource, h.identity⟩

/-- `finalizeVerified` of a mutation that is current. -/
lemma stops_finalizeCurrent {mutation : VerifiedMutation FakeSnapshotData} (hon : record.On r L)
    (hs : c.resourceStatus record.identity = .ok .same) (hp : c.snapshot r = some mutation.persist) :
    EngineStops ctx r (finalizeVerified (fakeBackend caps) ⟨L, r⟩ ⟨record, .verified mutation⟩
      mutation none).run (fun answer d => answer = .ok () ∧
        d = (c.written (record.provenBy mutation.persist)).setLive L
          ⟨record.provenBy mutation.persist, .committed⟩) c := by
  have hof := (Cell.snapshot_eq_some hp).1
  have howns : (fakeBackend caps).provesCurrent mutation.persist mutation.persist = true :=
    (fakeBackend_provesCurrent hof hof).mpr rfl
  refine stops_readback hon.resource hp (stops_status hon.identity hs ?_)
  simp only [fakeBackend_ownsCurrent, howns]
  exact stops_journalWrite hon.resource (stops_liveSet ⟨rfl, rfl⟩)

/-- `finalizeVerified`. -/
lemma stops_finalizeAny {mutation : VerifiedMutation FakeSnapshotData}
    (h : Enlisted r L ⟨record, .verified mutation⟩ p c) :
    EngineStops ctx r (finalizeVerified (fakeBackend caps) ⟨L, r⟩ ⟨record, .verified mutation⟩
      mutation none).run (Resolution r L ⟨record, .verified mutation⟩ p) c := by
  have hsound : mutation.persist.Fits r record.desired := h.sound
  by_cases hcurrent : mutation.persist = p
  · subst hcurrent
    refine (stops_finalizeCurrent h.on h.status h.snapshot).mono fun answer d hd => ?_
    obtain ⟨rfl, rfl⟩ := hd
    have hcommitted : Enlisted r L ⟨record.provenBy mutation.persist, .committed⟩ mutation.persist
        ((c.written (record.provenBy mutation.persist)).setLive L
          ⟨record.provenBy mutation.persist, .committed⟩) :=
      ⟨Cell.setLive_live _ _, h.on.provenBy _, h.before, h.status, h.snapshot, _, rfl, hsound⟩
    exact .inl ⟨rfl, rfl, _, _, hcommitted, rfl, rfl, rfl, fun h => absurd h (by
      simp [LiveState.isSettled]), fun _ => rfl⟩
  · have hstale : (fakeBackend caps).provesCurrent mutation.persist p = false :=
      Bool.eq_false_iff.mpr fun h' =>
        hcurrent ((fakeBackend_provesCurrent hsound.of h.of).mp h')
    refine stops_readback h.on.resource h.snapshot (stops_status h.on.identity h.status ?_)
    simp only [fakeBackend_ownsCurrent, hstale]
    exact .inr ⟨hcurrent, ⟨_, rfl⟩, _, h, rfl, rfl, hcurrent⟩

lemma resumeWith_desired (resume : FakeRecord) (identity : Option FakeSnapshot) :
    (resumeWith resume identity).desired = resume.desired := by
  unfold resumeWith
  split <;> rfl

lemma JournalRecord.On.resumeWith (h : resume.On r L) (identity : Option FakeSnapshot) :
    (Osdns.resumeWith resume identity).On r L := by
  unfold Osdns.resumeWith
  split
  · exact ⟨h.lease, h.resource, h.identity⟩
  · exact h

/-- The record a rollback to fitting content resumes with is sound. -/
lemma sound_resumeWith {identity : Option FakeSnapshot} (hq : q.Of r)
    (happlied : resume.phase = .applied → stateMatches q.data.state resume.desired = true)
    (hidentity : ∀ s, identity = some s → s = q) :
    (resumeWith resume identity).settledState.Sound r L (resumeWith resume identity) := by
  by_cases hphase : resume.phase = .applied
  · cases identity with
    | none => simp [JournalRecord.settledState, resumeWith, hphase, LiveState.Sound]
    | some s =>
        obtain rfl := hidentity s rfl
        simp only [JournalRecord.settledState, resumeWith, hphase, ↓reduceIte]
        exact ⟨s, rfl, hq, happlied hphase⟩
  · simp only [JournalRecord.settledState, resumeWith, hphase, ↓reduceIte]
    trivial

/-- `resolveCompensation`. -/
lemma stops_resolveCompensationAny (h : Enlisted r L ⟨record, .compensating pending resume⟩ p c) :
    EngineStops ctx r (resolveCompensation (fakeBackend caps) ⟨L, r⟩
      ⟨record, .compensating pending resume⟩ pending resume).run
      (Resolution r L ⟨record, .compensating pending resume⟩ p) c := by
  have hsound : pending.Sound r L record resume := h.sound
  refine Fallible.stops_value (stops_compensateAny h.on.identity h.status h.snapshot hsound.target
    hsound.evidence) fun answer d hd => ?_
  obtain ⟨answer, rollback⟩ := answer
  rcases hd with ⟨happlies, hrolled, identity, q, rfl, hq, hstate, hidentity⟩ |
    ⟨hno, rfl, error, hanswer⟩
  · have hsettled : Enlisted r L ⟨resumeWith resume identity,
        (resumeWith resume identity).settledState⟩ q
        ((d.written (resumeWith resume identity)).setLive L
          ⟨resumeWith resume identity, (resumeWith resume identity).settledState⟩) :=
      ⟨Cell.setLive_live _ _, hsound.resumed.resumeWith identity,
        by rw [resumeWith_before, hsound.before]; exact h.before,
        by rw [resumeWith_identity, hsound.identity]; exact hrolled.status h.status, hq,
        sound_resumeWith (Cell.snapshot_eq_some hq).1 (fun hphase => hstate ▸ hsound.applied hphase)
          hidentity⟩
    have hplan : (resumeWith resume identity).settledState.plan (resumeWith resume identity) =
        resume.desired := by
      rw [← resumeWith_desired resume identity]
      unfold JournalRecord.settledState
      split <;> rfl
    exact stops_journalWrite (hsound.resumed.resumeWith identity).resource (stops_liveSet (.inl
      ⟨happlies, rfl, _, q, hsettled, JournalRecord.settledState_isSettled _, hplan,
        (resumeWith_before resume identity).trans hsound.before, fun h =>
          absurd h (by simp [LiveState.isSettled]), fun h => absurd h (by simp [LiveState.rolls])⟩))
  · obtain ⟨rfl, rfl⟩ := Prod.mk.inj hanswer
    have hkept : ∀ kept : FakeRecord, kept = { record with
        phase := .prepared, applied := rollback.evidence, desired := resume.desired } →
        Enlisted r L ⟨kept, .compensating rollback resume⟩ p
          ((d.setLive L ⟨kept, .compensating rollback resume⟩).written kept) := by
      rintro _ rfl
      exact ⟨Cell.setLive_live d _,
        ⟨h.on.lease, h.on.resource, h.on.identity⟩, h.before, h.status, h.snapshot, hsound.target,
        hsound.evidence, hsound.resumed, hsound.before, hsound.identity, hsound.applied⟩
    exact stops_liveGet h.live_eq (stops_liveSet (stops_journalWrite h.on.resource
      (.inr ⟨hno, ⟨_, rfl⟩, _, hkept _ rfl, rfl, rfl, hno⟩)))

/-- The part of `resolve_live` after a journal repair. -/
lemma stops_resolveStateAny (caps : Capabilities) (h : Enlisted r L live p c)
    (hn : live.state.isRepair = false) :
    EngineStops ctx r (match live.state with
      | .committed => return
      | .unmutated => return
      | .prepared =>
          throw (.externalModification live.record.resource
            "prepared intent has no verified applied mutation")
      | .verified mutation => finalizeVerified (fakeBackend caps) ⟨L, r⟩ live mutation none
      | .compensating pending resume =>
          resolveCompensation (fakeBackend caps) ⟨L, r⟩ live pending resume
      | .repair _ => throw (.panicked "journal repair is resolved first") :
        EngineResult FakeSnapshotData FakeIdentity Unit).run (Resolution r L live p) c := by
  obtain ⟨record, state⟩ := live
  cases state with
  | committed => exact .inl ⟨trivial, rfl, _, p, h, rfl, rfl, rfl, fun _ => rfl, fun _ => rfl⟩
  | unmutated => exact .inl ⟨trivial, rfl, _, p, h, rfl, rfl, rfl, fun _ => rfl, fun _ => rfl⟩
  | prepared => exact absurd h.sound id
  | verified mutation => exact stops_finalizeAny h
  | compensating pending resume => exact stops_resolveCompensationAny h
  | repair next => exact absurd hn (by simp [LiveState.isRepair])

/-- What is resolved after a journal repair. -/
lemma Resolution.repaired {state : FakeLiveState} {answer : Except Error Unit}
    (h : Resolution r L ⟨record, state⟩ p answer d) :
    Resolution r L ⟨record, .repair state⟩ p answer d := by
  rcases h with ⟨hyes, ha, live', q, he, hs, hplan, hbefore, -, hq⟩ | h
  · exact .inl ⟨hyes, ha, live', q, he, hs, hplan, hbefore,
      fun h => absurd h (by simp [LiveState.isSettled]), hq⟩
  · exact .inr h

/-- `resolve_live`. -/
lemma stops_resolveLiveAny (h : Enlisted r L live p c) :
    EngineStops ctx r (resolveLive (fakeBackend caps) ⟨L, r⟩ none).run (Resolution r L live p) c := by
  unfold resolveLive
  refine stops_liveGet h.live_eq ?_
  obtain ⟨record, state⟩ := live
  cases state with
  | repair next =>
      obtain ⟨hn, hsound⟩ := h.sound
      have hnext : Enlisted r L ⟨record, next⟩ p ((c.written record).setLive L ⟨record, next⟩) :=
        ⟨Cell.setLive_live _ _, h.on, h.before, h.status, h.snapshot, hsound⟩
      refine stops_journalWrite (k := fun _ => _) h.on.resource (stops_liveSet (k := fun _ => _) ?_)
      cases next <;> exact (stops_resolveStateAny caps hnext hn).mono fun _ _ => Resolution.repaired
  | committed => exact stops_resolveStateAny caps h rfl
  | unmutated => exact stops_resolveStateAny caps h rfl
  | prepared => exact stops_resolveStateAny caps h rfl
  | verified mutation => exact stops_resolveStateAny caps h rfl
  | compensating pending resume => exact stops_resolveStateAny caps h rfl

/-! ## Overlays -/

/-- `mutate_and_verify` over the current snapshot. -/
lemma stops_mutateAndVerify {cause : Cause} {identity : FakeResourceIdentity}
    {plan : NormalizedConfig} {points : MutatePoints} (hr : identity.resource = r)
    (hs : c.resourceStatus identity = .ok .same) (hp : c.snapshot r = some p) :
    EngineStops ctx r (mutateAndVerify (fakeBackend caps) cause identity p plan points)
      (fun answer d => ∃ q, answer = .ok ⟨some ⟨q⟩, q⟩ ∧
        Shows r (mergeState p.data.state plan) q c d) c := by
  refine Program.Stops.bind (stops_applyBound hr hs hp) fun answer d hd => ?_
  obtain ⟨rfl, rfl⟩ := hd
  have hshows : Shows r (mergeState p.data.state plan) (c.produced r (mergeState p.data.state plan))
      c (c.mutate cause p.data.state (mergeState p.data.state plan) ctx.now) := Shows.mutate
  have hof := (Cell.snapshot_eq_some hshows.snapshot).1
  have hmatches : (fakeBackend caps).matchesDesired
      (c.produced r (mergeState p.data.state plan)) plan = true := by
    rw [fakeBackend_matchesDesired hof]
    exact stateMatches_mergeState _ _
  have hproves : (fakeBackend caps).provesCurrent (c.produced r (mergeState p.data.state plan))
      (c.produced r (mergeState p.data.state plan)) = true :=
    (fakeBackend_provesCurrent hof hof).mpr rfl
  refine stops_fire (stops_status hr (hshows.status _ hs) ?_)
  simp only [ne_eq, not_true_eq_false, ↓reduceIte]
  refine stops_readback hr hshows.snapshot (stops_fire ?_)
  simp only [hmatches, Bool.true_eq_false, ↓reduceIte]
  refine stops_status hr (hshows.status _ hs) (stops_fire ?_)
  simp only [fakeBackend_ownershipIdentity, hproves, Bool.true_eq_false, ↓reduceIte]
  exact ⟨_, rfl, hshows⟩

/-- `commit_verified` of a mutation that is current. -/
lemma stops_commitVerified {state : FakeLiveState} {mutation : VerifiedMutation FakeSnapshotData}
    (hlive : c.live L = some ⟨record, state⟩) (hon : record.On r L)
    (hs : c.resourceStatus record.identity = .ok .same) (hp : c.snapshot r = some mutation.persist) :
    EngineStops ctx r (commitVerified (fakeBackend caps) ⟨L, r⟩ mutation).run
      (fun answer d => answer = .ok () ∧
        d = ((c.setLive L ⟨record, .verified mutation⟩).written
          (record.provenBy mutation.persist)).setLive L
            ⟨record.provenBy mutation.persist, .committed⟩) c :=
  stops_liveGet hlive (stops_liveSet (stops_liveGet (Cell.setLive_live _ _)
    (stops_finalizeCurrent hon hs hp)))

/-- `prepare_live`. -/
lemma stops_prepareLive (hlive : c.live L = some live) (hr : record.resource = r) :
    EngineStops ctx r (prepareLive ⟨L, r⟩ record).run (fun answer d => answer = .ok () ∧
      d = (c.written record).setLive L ⟨record, .unmutated⟩) c :=
  stops_liveGet hlive (stops_journalWrite hr (stops_liveSet ⟨rfl, rfl⟩))

/-- The record of an overlay over the base `before`, verified as `q`. -/
def JournalRecord.overlaid (record : FakeRecord) (before q : FakeSnapshot) : FakeRecord :=
  { record with before := before, phase := .applied, applied := some q }

/-- The plan was merged onto the state `p`, and the record is published over the base `before`. -/
def Overlaid (r : ResourceId) (L : LeaseId) (record : FakeRecord) (p before : FakeSnapshot)
    (d : Cell) : Prop :=
  ∃ q, Enlisted r L ⟨record.overlaid before q, .committed⟩ q d ∧
    q.data.state = mergeState p.data.state record.desired ∧
    d.record L = some (record.overlaid before q)

lemma Cell.record_written (h : record.leaseId = L) : (c.written record).record L = some record := by
  subst h
  exact AList.lookup_insert _

/-- `apply_overlay` over the current snapshot. -/
lemma stops_applyOverlay (h : Enlisted r L live p c) (hb : before.Of r) :
    EngineStops ctx r (applyOverlay (fakeBackend caps) ⟨L, r⟩ p before)
      (fun outcome d => outcome = .rebased ∧ Overlaid r L live.record p before d) c := by
  refine stops_liveGet h.live_eq (Program.Stops.bind (stops_prepareLive h.live_eq h.on.resource)
    fun answer d hd => ?_)
  obtain ⟨rfl, rfl⟩ := hd
  refine stops_fire (stops_liveGet (Cell.setLive_live _ _) (stops_liveSet ?_))
  refine Program.Stops.bind (stops_mutateAndVerify h.on.identity h.status h.snapshot)
    fun answer d hd => ?_
  obtain ⟨q, rfl, hshows⟩ := hd
  have hstatus := hshows.status live.record.identity h.status
  have hfits : q.Fits r live.record.desired :=
    ⟨(Cell.snapshot_eq_some hshows.snapshot).1, by
      rw [hshows.content]
      exact stateMatches_mergeState _ _⟩
  refine Program.Stops.bind (stops_commitVerified
    ((congrFun hshows.live L).trans (Cell.setLive_live _ _)) ⟨h.on.lease, h.on.resource, h.on.identity⟩
    hstatus hshows.snapshot) fun answer d hd => ?_
  obtain ⟨rfl, rfl⟩ := hd
  refine stops_fire ⟨rfl, q, ⟨Cell.setLive_live _ _, ⟨h.on.lease, h.on.resource, h.on.identity⟩, hb,
    hstatus, hshows.snapshot, q, rfl, hfits⟩, hshows.content, ?_⟩
  exact Cell.record_written h.on.lease

end Osdns
