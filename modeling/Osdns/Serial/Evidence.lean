import Osdns.Serial.Cell

/-!
# Ownership evidence and the invariant of a cell

What a snapshot kept as evidence says about the native state, and what the journal of a resource
guarantees at every moment, also between any two calls of an operation.

For a lease `L` whose record holds a `before` of content `b`:

* `Issued` — the snapshot belongs to `L`: when it is current, `L` wrote it or it has the base
  content;
* `Names` — the snapshot is the latest of `L`: when `L` is the last writer, it is current.

`CellInv` is what a crash can rely on.  Its field `logged` is the write-ahead property: a lease
that is the last writer over a content other than its base has a durable record, unless it was
given up.
-/

namespace Osdns

open Interaction

variable {r : ResourceId} {L : LeaseId} {b : FakeState} {p : FakeSnapshot} {c d : Cell}

/-! ## Evidence -/

/-- The lease made the latest native write. -/
def Ours (L : LeaseId) (c : Cell) : Prop := c.writer = .engine L

/-- A snapshot that belongs to the lease `L` with base content `b`. -/
structure Issued (r : ResourceId) (L : LeaseId) (b : FakeState) (p : FakeSnapshot) (c : Cell) :
    Prop where
  of : p.Of r
  generation_le : p.data.generation ≤ c.generation
  owned : c.snapshot r = some p → Ours L c ∨ p.data.state = b

/-- A snapshot that is current whenever the lease made the latest native write. -/
def Names (r : ResourceId) (L : LeaseId) (p : FakeSnapshot) (c : Cell) : Prop :=
  Ours L c → c.snapshot r = some p

/-- The record of `L` was given up, or its resource was found gone or replaced. -/
def GivenUp (L : LeaseId) (c : Cell) : Prop :=
  ∃ removal, removal ≠ Removal.settled ∧ (L, removal) ∈ c.removals

/-- A removal of the record of `L` was attempted. -/
def Retired (L : LeaseId) (c : Cell) : Prop := ∃ removal, (L, removal) ∈ c.removals

/-! ## Records -/

/-- What holds of every record a lease keeps, in memory or in the journal. -/
structure RecordOK (r : ResourceId) (L : LeaseId) (record : FakeRecord) (c : Cell) : Prop where
  lease : record.leaseId = L
  resource : record.resource = r
  identity : record.identity.resource = r
  before : record.before.Of r
  before_le : record.before.data.generation ≤ c.generation
  base : Ours L c → record.before.data.state = c.base
  evidence : ∀ p, record.applied = some p → Issued r L record.before.data.state p c

lemma RecordOK.on {record : FakeRecord} (h : RecordOK r L record c) : record.On r L :=
  ⟨h.lease, h.resource, h.identity⟩

/-- The invariant of a cell: its journal, its removals and its native state fit together. -/
structure CellInv (r : ResourceId) (c : Cell) : Prop where
  records : ∀ L record, c.record L = some record → RecordOK r L record c
  logged : ∀ L, Ours L c → c.state = some c.base ∨ GivenUp L c ∨ (c.record L).isSome
  confirmed : ∀ L record, c.confirmed L = some record → c.record L = some record
  live : ∀ L live, c.live L = some live → live.On r L

/-- What the journal says of a lease that mutates over the base content `b`. -/
structure Backed (L : LeaseId) (b : FakeState) (c : Cell) : Prop where
  base : Ours L c → c.base = b
  same : ∀ record, c.record L = some record → record.before.data.state = b

/-- The lease still has its durable record, or nobody counts on it any more. -/
def Kept (L : LeaseId) (c : Cell) : Prop := GivenUp L c ∨ (c.record L).isSome

/-! ## New leases -/

/-- Nothing on this resource mentions the lease. -/
structure Fresh (L : LeaseId) (c : Cell) : Prop where
  live : c.live L = none
  record : c.record L = none
  confirmed : c.confirmed L = none
  writer : ¬ Ours L c
  removals : ¬ Retired L c

/-- A lease that session `i` may work on: its own, or one that left a trace. -/
def Known (i : SessionId) (L : LeaseId) (c : Cell) : Prop :=
  L = i ∨ (c.live L).isSome ∨ (c.record L).isSome

lemma Known.not_fresh {i : SessionId} (h : Known i L c) (hL : L ≠ i) : ¬ Fresh L c := by
  rintro ⟨hlive, hrec, -, -, -⟩
  rcases h with h | h | h
  · exact hL h
  · simp [hlive] at h
  · simp [hrec] at h

/-! ## Live records and mutations -/

/-- States in which a live record admits no native mutation. -/
def LiveState.blocked {D I : Type} : LiveState D I → Bool
  | .repair _ => true
  | .verified _ => true
  | _ => false

/-- The live record of the lease that holds the lock is not blocked. -/
def Unblocked (L : LeaseId) (c : Cell) : Prop :=
  ∀ m live, c.lock = some (m, L) → c.live L = some live → live.state.blocked = false

/-- A step of session `i` respects blocked live records: it makes no mutation for one, and it
unblocks one only when the latest journal operation was a successful write of the record it
leaves in memory.  And it leaves no trace of a lease that is neither known nor its own. -/
structure Traced (i : SessionId) (c d : Cell) : Prop where
  mutation : ∀ m L live, c.lock = some (m, L) → c.live L = some live →
    live.state.blocked = true →
    ∀ cause old new time, d.log = .mutated cause old new time :: c.log → cause.lease ≠ L
  release : ∀ L live live', c.live L = some live → live.state.blocked = true →
    d.live L = some live' → live'.state.blocked = false → d.confirmed L = some live'.record
  fresh : ∀ L, L ≠ i → Fresh L c → Fresh L d

/-- A step of an engine program besides keeps locks and registrations. -/
structure Accounted (i : SessionId) (c d : Cell) : Prop extends Traced i c d where
  lock : d.lock = c.lock
  active : d.active = c.active

/-- What every call of an operation on `r` guarantees. -/
def engineGuarantee (r : ResourceId) (i : SessionId) :
    Handler (EngineRet FakeSnapshotData FakeIdentity) Cell :=
  fun _ c _ d => CellInv r d ∧ Accounted i c d

/-! ## Stability -/

section Shift

variable (h : Shift c d)

include h

lemma Shift.ours (hd : Ours L d) : Ours L c := (h.engine hd).1

lemma Shift.snapshot_of_ours (hd : Ours L d) : d.snapshot r = c.snapshot r := by
  obtain ⟨-, hs, hg⟩ := h.engine hd
  simp only [Cell.snapshot, hs, hg]

lemma Issued.shift (hp : Issued r L b p c) : Issued r L b p d := by
  refine ⟨hp.of, hp.generation_le.trans h.generation_le, fun hd => ?_⟩
  obtain ⟨hc, hw⟩ := h.snapshot hp.generation_le hd
  exact (hp.owned hc).imp (fun ho => hw.trans ho) id

lemma Names.shift (hp : Names r L p c) : Names r L p d := fun hd => by
  rw [h.snapshot_of_ours hd]
  exact hp (h.ours hd)

lemma RecordOK.shift {record : FakeRecord} (hr : RecordOK r L record c) :
    RecordOK r L record d :=
  { hr with
    before_le := hr.before_le.trans h.generation_le
    base := fun hd => by rw [h.base]; exact hr.base (h.ours hd)
    evidence := fun p hp => (hr.evidence p hp).shift h }

/-- A lease that is the last writer only over the content `b` stays so. -/
lemma Shift.state_of_ours (hc : Ours L c → c.state = some b) (hd : Ours L d) :
    d.state = some b := by
  rw [(h.engine hd).2.1]
  exact hc (h.ours hd)

end Shift

lemma Issued.stable : Stable interference (Issued r L b p) := fun h hp => hp.shift h.shift

lemma Names.stable : Stable interference (Names r L p) := fun h hp => hp.shift h.shift

lemma not_ours_stable : Stable interference (fun c => ¬ Ours L c) :=
  fun h hc hd => hc (h.shift.ours hd)

lemma RecordOK.stable {record : FakeRecord} : Stable interference (RecordOK r L record) :=
  fun h hr => hr.shift h.shift

section Drift

variable (h : Drift c d)

include h

lemma GivenUp.drift (hc : GivenUp L c) : GivenUp L d := by
  unfold GivenUp
  rwa [h.removals]

lemma Retired.drift (hc : Retired L c) : Retired L d := by
  unfold Retired
  rwa [h.removals]

lemma CellInv.drift (hc : CellInv r c) : CellInv r d := by
  refine ⟨fun L record hrec => ?_, fun L hd => ?_, fun L record hconf => ?_,
    fun L live hlive => hc.live L live (h.live ▸ hlive)⟩
  · rw [h.record] at hrec
    exact (hc.records L record hrec).shift h.shift
  · rw [h.record, (h.shift.engine hd).2.1, h.base]
    exact (hc.logged L (h.shift.ours hd)).imp id (Or.imp_left (GivenUp.drift h))
  · rw [h.record]
    rw [h.confirmed] at hconf
    exact hc.confirmed L record hconf

lemma Fresh.drift (hc : Fresh L c) : Fresh L d :=
  ⟨by rw [h.live]; exact hc.live, by rw [h.record]; exact hc.record,
    by rw [h.confirmed]; exact hc.confirmed, fun ho => hc.writer (h.shift.ours ho),
    fun hd => hc.removals (by unfold Retired at hd ⊢; rwa [h.removals] at hd)⟩

end Drift

lemma GivenUp.stable : Stable interference (GivenUp L) := fun h hc => hc.drift h.toDrift

lemma CellInv.stable : Stable interference (CellInv r) := fun h hc => hc.drift h.toDrift

lemma Backed.stable : Stable interference (Backed L b) := fun h hc => by
  refine ⟨fun hd => ?_, fun record hrec => ?_⟩
  · rw [h.base]
    exact hc.base (h.shift.ours hd)
  · rw [h.record] at hrec
    exact hc.same record hrec

lemma Kept.stable : Stable interference (Kept L) := fun h hc => by
  unfold Kept
  rw [h.record]
  exact hc.imp_left (GivenUp.stable h)

lemma Known.stable {i : SessionId} : Stable interference (Known i L) := fun h hc => by
  unfold Known
  rwa [h.record, h.live]

lemma Fresh.stable : Stable interference (Fresh L) := fun h hc => hc.drift h.toDrift

lemma Unblocked.stable : Stable interference (Unblocked L) := fun h hc m live hlock hlive => by
  rw [h.lock] at hlock
  rw [h.live] at hlive
  exact hc m live hlock hlive

end Osdns
