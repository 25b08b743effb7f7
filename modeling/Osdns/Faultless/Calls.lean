import Osdns.Recovery.Record
import Osdns.Serial.LiveRecord

/-!
# Calls that do not fail

Without faults and without others at work, every call on a cell has one answer.  The rules below
run an engine program call by call: each says what the call answers and what the cell becomes, and
`compensate` over evidence that is current is one more rule of this kind.
-/

namespace Osdns

open Interaction
open Interaction.Fallible (ask value attempt)
open Engine

variable {r : ResourceId} {L : LeaseId} {ctx : Context} {c d : Cell} {caps : Capabilities}
variable {α β : Type}

/-- No call fails. -/
def noFaults : Faults := fun _ => False

/-- An engine program stops on the cell of `r`, by itself and without faults. -/
abbrev EngineStops (ctx : Context) (r : ResourceId) (p : Engine FakeSnapshotData FakeIdentity α)
    (Q : α → Cell → Prop) (c : Cell) : Prop :=
  p.Stops (Cell.engineAlone noFaults ctx r) Q c

/-! ## Single calls -/

section Calls

variable {Q : α → Cell → Prop}

/-- A call on the cell has the answer of an execution that proceeds. -/
lemma stops_exec {o : EngineOp FakeSnapshotData FakeIdentity}
    {k : EngineRet FakeSnapshotData FakeIdentity o → Engine FakeSnapshotData FakeIdentity α}
    {answer : EngineRet FakeSnapshotData FakeIdentity o} (ho : o.target = some r)
    (hx : c.execEngine r ctx .proceed o = some (answer, d))
    (hk : EngineStops ctx r (k answer) Q d) : EngineStops ctx r (.call o k) Q c := by
  refine .step (r := answer) (t := d) ⟨.proceed, .inl rfl, .inl ⟨ho, hx⟩⟩ (fun answer' d' h => ?_) hk
  obtain ⟨fate, hfate, ⟨-, h⟩ | ⟨hn, -⟩⟩ := h
  · obtain rfl := hfate.resolve_right id
    obtain ⟨rfl, rfl⟩ := Prod.mk.inj (Option.some.inj (h.symm.trans hx))
    exact ⟨rfl, rfl⟩
  · exact absurd (ho.symm.trans hn) (by simp)

lemma stops_fire {point : TxPoint} {k : Except Error Unit → Engine FakeSnapshotData FakeIdentity α}
    (hk : EngineStops ctx r (k (.ok ())) Q c) : EngineStops ctx r (fire point >>= k) Q c := by
  refine .step (r := .ok ()) (t := c) ⟨.proceed, .inl rfl, .inr ⟨rfl, rfl, fun _ => rfl⟩⟩
    (fun answer d h => ?_) hk
  obtain ⟨fate, hfate, ⟨hs, -⟩ | ⟨-, hd, h⟩⟩ := h
  · exact absurd hs (by simp [ManagerOp.target, EngineOp.target])
  · obtain rfl := hfate.resolve_right id
    obtain rfl := (Prod.mk.inj (Option.some.inj (h (.pristine (.single r) .empty)))).1
    exact ⟨rfl, hd⟩

lemma stops_status {site : Site} {identity : FakeResourceIdentity}
    {k : Except Error ResourceStatus → Engine FakeSnapshotData FakeIdentity α}
    (hr : identity.resource = r) (hs : c.resourceStatus identity = .ok .same)
    (hk : EngineStops ctx r (k (.ok .same)) Q c) :
    EngineStops ctx r (resourceStatus site identity >>= k) Q c :=
  stops_exec (congrArg some hr) (d := c) (by rw [← hs]; rfl) hk

lemma stops_readback {site : Site} {resource : ResourceId} {p : FakeSnapshot}
    {k : Except Error FakeSnapshot → Engine FakeSnapshotData FakeIdentity α}
    (hr : resource = r) (hp : c.snapshot r = some p)
    (hk : EngineStops ctx r (k (.ok p)) Q c) :
    EngineStops ctx r (readback site resource >>= k) Q c := by
  refine stops_exec (congrArg some hr) (d := c) ?_ hk
  simp only [Cell.execEngine, Cell.read, hp]

/-- A guarded mutation over the current snapshot is performed. -/
lemma stops_applyGuarded {cause : Cause} {resource : ResourceId} {p : FakeSnapshot}
    {plan : NormalizedConfig}
    {k : MutationAttempt FakeSnapshotData → Engine FakeSnapshotData FakeIdentity α}
    (hr : resource = r) (hp : c.snapshot r = some p)
    (hk : EngineStops ctx r (k (.performed (some (c.produced r (mergeState p.data.state plan))))) Q
      (c.mutate cause p.data.state (mergeState p.data.state plan) ctx.now)) :
    EngineStops ctx r (applyGuarded cause resource p plan >>= k) Q c := by
  refine stops_exec (congrArg some hr) ?_ hk
  obtain ⟨hof, hs, hg⟩ := Cell.snapshot_eq_some hp
  have hdata : p.data = ⟨p.data.state, c.generation⟩ := by rw [← hg]
  simp only [Cell.execEngine, Cell.applyGuarded, interpretFull_of hof, hs, if_pos hdata]

/-- A guarded restoration over the current snapshot is performed. -/
lemma stops_restoreGuarded {cause : Cause} {resource : ResourceId} {p target : FakeSnapshot}
    {k : MutationAttempt FakeSnapshotData → Engine FakeSnapshotData FakeIdentity α}
    (hr : resource = r) (hp : c.snapshot r = some p) (ht : target.Of r)
    (hk : EngineStops ctx r (k (.performed (some (c.produced r target.data.state)))) Q
      (c.mutate cause p.data.state target.data.state ctx.now)) :
    EngineStops ctx r (restoreGuarded cause resource p target >>= k) Q c := by
  refine stops_exec (congrArg some hr) ?_ hk
  obtain ⟨hof, hs, hg⟩ := Cell.snapshot_eq_some hp
  have hdata : p.data = ⟨p.data.state, c.generation⟩ := by rw [← hg]
  have hmatch : ¬ (p.resource ≠ r ∨ target.resource ≠ r) := by simp [hof.2, ht.2]
  simp only [Cell.execEngine, Cell.restoreGuarded, if_neg hmatch, interpretFull_of hof,
    interpretFull_of ht, hs, if_pos hdata]

/-- The cell after a successful journal write. -/
def Cell.written (c : Cell) (record : FakeRecord) : Cell :=
  { c.publish record with
    confirmed := Function.update c.confirmed record.leaseId (some record) }

lemma stops_journalWrite {record : FakeRecord}
    {k : Except Error Unit → Engine FakeSnapshotData FakeIdentity α} (hr : record.resource = r)
    (hk : EngineStops ctx r (k (.ok ())) Q (c.written record)) :
    EngineStops ctx r (journalWrite record >>= k) Q c :=
  stops_exec (congrArg some hr) rfl hk

lemma stops_journalRemove {lease : LeaseId} {resource : ResourceId} {removal : Removal}
    {k : Except Error Unit → Engine FakeSnapshotData FakeIdentity α} (hr : resource = r)
    (hk : EngineStops ctx r (k (.ok ())) Q
      (c.attemptRemoval lease removal (c.journal.erase lease))) :
    EngineStops ctx r (journalRemove lease resource removal >>= k) Q c :=
  stops_exec (congrArg some hr) rfl hk

lemma stops_liveGet {live : FakeLive} {k : FakeLive → Engine FakeSnapshotData FakeIdentity α}
    (hlive : c.live L = some live) (hk : EngineStops ctx r (k live) Q c) :
    EngineStops ctx r (liveGet ⟨L, r⟩ >>= k) Q c :=
  stops_exec rfl (d := c) (by simp only [Cell.execEngine, hlive, Option.map_some]) hk

lemma stops_liveSet {live : FakeLive} {k : Unit → Engine FakeSnapshotData FakeIdentity α}
    (hk : EngineStops ctx r (k ()) Q (c.setLive L live)) :
    EngineStops ctx r (liveSet ⟨L, r⟩ live >>= k) Q c :=
  stops_exec rfl rfl hk

end Calls

/-! ## Guarded mutations -/

section Guarded

variable {cause : Cause} {identity : FakeResourceIdentity} {p target : FakeSnapshot}

/-- `restore_bound` over the current snapshot. -/
lemma stops_restoreBound (hr : identity.resource = r) (hs : c.resourceStatus identity = .ok .same)
    (hp : c.snapshot r = some p) (ht : target.Of r) :
    EngineStops ctx r (restoreBound (fakeBackend caps) cause identity p target)
      (fun answer d => answer = .performed (some (c.produced r target.data.state)) ∧
        d = c.mutate cause p.data.state target.data.state ctx.now) c :=
  stops_status hr hs (stops_restoreGuarded (k := pure) hr hp ht ⟨rfl, rfl⟩)

/-- `apply_bound` over the current snapshot. -/
lemma stops_applyBound {plan : NormalizedConfig} (hr : identity.resource = r)
    (hs : c.resourceStatus identity = .ok .same) (hp : c.snapshot r = some p) :
    EngineStops ctx r (applyBound (fakeBackend caps) cause identity p plan)
      (fun answer d => answer = .performed (some (c.produced r (mergeState p.data.state plan))) ∧
        d = c.mutate cause p.data.state (mergeState p.data.state plan) ctx.now) c :=
  stops_status hr hs (stops_applyGuarded (k := pure) hr hp ⟨rfl, rfl⟩)

/-! ## Compensation -/

/-- `verify_compensation` of a restore whose result is current. -/
lemma stops_verifyCompensation (hr : identity.resource = r)
    (hs : c.resourceStatus identity = .ok .same) (hp : c.snapshot r = some p) (ht : target.Of r)
    (he : p.data.state = target.data.state) :
    EngineStops ctx r (verifyCompensation (fakeBackend caps) identity ⟨some p, target⟩).run
      (fun answer d => answer = .ok (some p) ∧ d = c) c := by
  have hof := (Cell.snapshot_eq_some hp).1
  have hequal : (fakeBackend caps).equivalent p target = true :=
    (fakeBackend_equivalent hof ht).mpr he
  have howns : (fakeBackend caps).provesCurrent p p = true :=
    (fakeBackend_provesCurrent hof hof).mpr rfl
  refine stops_readback hr hp (stops_status hr hs ?_)
  simp only [ne_eq, hequal, Bool.true_eq_false, ↓reduceIte, Option.filter_some,
    fakeBackend_ownsCurrent, howns]
  exact ⟨rfl, rfl⟩

/-- What a compensation over the current evidence leaves: the state it found, or its target
written over it. -/
def Cell.Rolled (L : LeaseId) (c d : Cell) : Prop :=
  d = c ∨ ∃ old new now, d = c.mutate ⟨L, false⟩ old new now

/-- `compensate` when the rollback names the current snapshot. -/
lemma stops_compensate {pending : PendingRollback FakeSnapshotData} {point : Option TxPoint}
    (hr : identity.resource = r) (hs : c.resourceStatus identity = .ok .same)
    (hp : c.snapshot r = some p) (ht : pending.target.Of r)
    (hnames : pending.evidence = some p ∨ pending.evidence = none ∧ pending.target = p) :
    EngineStops ctx r (compensate (fakeBackend caps) L identity pending point)
      (fun answer d => c.Rolled L d ∧ ∃ q, answer.1 = .ok (some q) ∧ d.snapshot r = some q ∧
        q.data.state = pending.target.data.state) c := by
  have hof := (Cell.snapshot_eq_some hp).1
  have howns : (fakeBackend caps).provesCurrent p p = true :=
    (fakeBackend_provesCurrent hof hof).mpr rfl
  refine stops_status hr hs ?_
  simp only [ne_eq, not_true_eq_false, ↓reduceIte]
  refine stops_readback hr hp ?_
  by_cases hsame : p.data.state = pending.target.data.state
  · have hequal : (fakeBackend caps).equivalent p pending.target = true :=
      (fakeBackend_equivalent hof ht).mpr hsame
    simp only [hequal, ↓reduceIte]
    rcases hnames with hnames | ⟨hnames, htarget⟩
    · simp only [hnames, Option.filter_some, fakeBackend_ownsCurrent, howns, ↓reduceIte]
      exact ⟨.inl rfl, p, rfl, hp, hsame⟩
    · simp only [hnames, Option.filter_none, fakeBackend_ownsCurrent, htarget, howns, ↓reduceIte]
      exact ⟨.inl rfl, p, rfl, hp, rfl⟩
  · have hdiffers : (fakeBackend caps).equivalent p pending.target = false :=
      Bool.eq_false_iff.mpr fun h => hsame ((fakeBackend_equivalent hof ht).mp h)
    have hevidence : pending.evidence = some p :=
      hnames.resolve_right fun h => hsame (by rw [h.2])
    simp only [hdiffers, Bool.false_eq_true, ↓reduceIte, hevidence, fakeBackend_ownsCurrent, howns,
      Bool.true_eq_false]
    refine (stops_restoreBound hr hs hp ht).bind fun answer d h => ?_
    obtain ⟨rfl, rfl⟩ := h
    have hdone : EngineStops ctx r (do
        return (← (verifyCompensation (fakeBackend caps) identity
          ⟨some (c.produced r pending.target.data.state), pending.target⟩).run,
          (⟨some (c.produced r pending.target.data.state), pending.target⟩ :
            PendingRollback FakeSnapshotData)))
        (fun answer d => c.Rolled L d ∧ ∃ q, answer.1 = .ok (some q) ∧ d.snapshot r = some q ∧
          q.data.state = pending.target.data.state)
        (c.mutate ⟨L, false⟩ p.data.state pending.target.data.state ctx.now) := by
      refine (stops_verifyCompensation hr (Cell.status_mutate hs) Cell.snapshot_mutate ht rfl).bind
        fun answer d h => ?_
      obtain ⟨rfl, rfl⟩ := h
      exact ⟨.inr ⟨_, _, _, rfl⟩, _, rfl, Cell.snapshot_mutate, rfl⟩
    cases point with
    | none => exact hdone
    | some point => exact stops_fire hdone

end Guarded

end Osdns
