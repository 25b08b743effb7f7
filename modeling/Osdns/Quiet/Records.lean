import Osdns.Quiet.Mutation

/-!
# Live records that nobody interferes with

The transitions of a live record in `Model/Transaction.lean`, over a native state that only they
change.
-/

namespace Osdns

open Interaction
open Interaction.Fallible (ask value attempt)
open Engine

variable {r : ResourceId} {L : LeaseId} {c₀ c d e : Cell} {live live' : FakeLive}
variable {F : Faults} {i : SessionId} {m : ManagerId} {caps : Capabilities} {α β : Type}
variable {p q : FakeSnapshot} {content : FakeState} {record candidate : FakeRecord}
variable {mutation : VerifiedMutation FakeSnapshotData}

/-! ## What a live record stands for -/

/-- The live record is in memory and the snapshot `q` is current; the resource is the one it was in
`c₀`. -/
structure Stands (r : ResourceId) (L : LeaseId) (c₀ : Cell) (live : FakeLive) (q : FakeSnapshot)
    (c : Cell) : Prop where
  live_eq : c.live L = some live
  snapshot : c.snapshot r = some q
  status : ∀ identity, c₀.resourceStatus identity = .ok .same →
    c.resourceStatus identity = .ok .same

namespace Stands

lemma alike (h : Stands r L c₀ live q c) (hd : Alike c d) : Stands r L c₀ live q d :=
  ⟨(congrFun hd.live L).trans h.live_eq, hd.snapshot.trans h.snapshot, fun identity hs =>
    (hd.status identity).trans (h.status identity hs)⟩

lemma stable : Stable bookkeeping (Stands r L c₀ live q) := fun hd h => h.alike hd

lemma shows (h : Stands r L c₀ live p c) (hd : Shows r content q c d) :
    Stands r L c₀ live q d :=
  ⟨(congrFun hd.live L).trans h.live_eq, hd.snapshot, fun identity hs =>
    hd.status identity (h.status identity hs)⟩

lemma rewritten {success : Prop} (h : Stands r L c₀ live q c)
    (hd : Rewritten L record success c d) : Stands r L c₀ live q d :=
  ⟨(congrFun hd.live L).trans h.live_eq, (hd.snapshot r).trans h.snapshot, fun identity hs =>
    (hd.status identity).trans (h.status identity hs)⟩

lemma setLive (h : Stands r L c₀ live q c) : Stands r L c₀ live' q (c.setLive L live') :=
  ⟨by simp [Cell.setLive], h.snapshot, h.status⟩

end Stands

/-! ## Publication -/

/-- `persist_live` leaves its record in memory, and in the journal when it succeeds. -/
lemma quiet_persistLive (hon : candidate.On r L) (h : Stands r L c₀ live q c) :
    EngineQuiet F i m r (persistLive ⟨L, r⟩ candidate).run
      (fun answer d => (answer = .ok () ∧ d.record L = some candidate ∧
          Stands r L c₀ ⟨candidate, candidate.settledState⟩ q d) ∨
        (∃ error, answer = .error error) ∧
          Stands r L c₀ ⟨candidate, .repair candidate.settledState⟩ q d) c := by
  refine quiet_journalWrite hon fun d answer hd => ?_
  match answer with
  | .ok _ =>
      refine quiet_liveSet rfl fun e he => quiet_pure (fun h hs => ?_)
        (.inl ⟨rfl, he.record.trans (hd.record rfl), ((h.rewritten hd).alike he).setLive⟩)
      exact hs.imp (fun hs => ⟨hs.1, (Alike.record h).trans hs.2.1, hs.2.2.alike h⟩)
        fun hs => ⟨hs.1, hs.2.alike h⟩
  | .error error =>
      refine quiet_liveSet rfl fun e he => quiet_pure (fun h hs => ?_)
        (.inr ⟨⟨error, rfl⟩, ((h.rewritten hd).alike he).setLive⟩)
      exact hs.imp (fun hs => ⟨hs.1, (Alike.record h).trans hs.2.1, hs.2.2.alike h⟩)
        fun hs => ⟨hs.1, hs.2.alike h⟩

/-- The record of a verified mutation. -/
def JournalRecord.verified (record : FakeRecord) (mutation : VerifiedMutation FakeSnapshotData) :
    FakeRecord :=
  { record with phase := .applied, applied := some mutation.persist }

/-- What publishing a verified mutation leaves: it is published, or still outstanding. -/
def Finalized (r : ResourceId) (L : LeaseId) (record : FakeRecord)
    (mutation : VerifiedMutation FakeSnapshotData) (q : FakeSnapshot) (c₀ : Cell)
    (answer : Except Error Unit) (d : Cell) : Prop :=
  (answer = .ok () ∧ d.record L = some (record.verified mutation) ∧
      Stands r L c₀ ⟨record.verified mutation, .committed⟩ q d) ∨
    (∃ error, answer = .error error) ∧ Stands r L c₀ ⟨record, .verified mutation⟩ q d

lemma Finalized.stable {answer : Except Error Unit} :
    Stable bookkeeping (Finalized r L record mutation q c₀ answer) := fun h hs =>
  hs.imp (fun hs => ⟨hs.1, (Alike.record h).trans hs.2.1, hs.2.2.alike h⟩)
    fun hs => ⟨hs.1, hs.2.alike h⟩

lemma quiet_finalizeVerified (hon : record.On r L)
    (h : Stands r L c₀ ⟨record, .verified mutation⟩ q c) :
    EngineQuiet F i m r (finalizeVerified (fakeBackend caps) ⟨L, r⟩ ⟨record, .verified mutation⟩
      mutation none).run (Finalized r L record mutation q c₀) c := by
  have hstop : ∀ {d : Cell} {error : Error}, Alike c d →
      EngineQuiet F i m r (pure (.error error)) (Finalized r L record mutation q c₀) d :=
    fun hd => quiet_pure Finalized.stable (.inr ⟨⟨_, rfl⟩, h.alike hd⟩)
  refine quiet_readback hon.resource fun d answer hd _ => ?_
  match answer with
  | .error error => exact hstop hd
  | .ok current =>
  refine quiet_status hon.identity fun d' answer hd' _ => ?_
  replace hd' := hd.trans hd'
  match answer with
  | .error error => exact hstop hd'
  | .ok status =>
  dsimp only [ExceptT.bindCont]
  split
  · exact hstop hd'
  refine quiet_journalWrite (L := L) ⟨hon.lease, hon.resource, hon.identity⟩ fun e answer he => ?_
  match answer with
  | .error error => exact quiet_pure Finalized.stable (.inr ⟨⟨error, rfl⟩, (h.alike hd').rewritten he⟩)
  | .ok _ =>
      refine quiet_liveSet rfl fun u hu => quiet_pure Finalized.stable (.inl ⟨rfl, ?_, ?_⟩)
      · exact hu.record.trans (he.record rfl)
      · exact (((h.alike hd').rewritten he).alike hu).setLive

/-- `commit_verified` of a live record. -/
lemma quiet_commitVerified {state : FakeLiveState} (hon : record.On r L)
    (h : Stands r L c₀ ⟨record, state⟩ q c) :
    EngineQuiet F i m r (commitVerified (fakeBackend caps) ⟨L, r⟩ mutation).run
      (Finalized r L record mutation q c₀) c := by
  refine quiet_liveGet rfl h.live_eq fun d hd => quiet_liveSet rfl fun d' hd' => ?_
  have hs : Stands r L c₀ ⟨record, .verified mutation⟩ q
      (d'.setLive L ⟨record, .verified mutation⟩) := (h.alike (hd.trans hd')).setLive
  refine quiet_liveGet rfl hs.live_eq fun e he => ?_
  exact quiet_finalizeVerified hon (hs.alike he)

end Osdns
