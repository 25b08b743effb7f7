import Osdns.Serial.Mutation

/-!
# Live records on one resource

The invariant of a live record, `LiveOK`, and the specifications of the transitions in
`Model/Transaction.lean` that move it: each takes a live record in `LiveOK` to one in `LiveOK`,
on success and on every failure, whatever the journal and the backend do.

`StateOK` says what each runtime state claims about the native state.  `LiveState.prepared` is
absent there: it marks a mutation in progress, and no operation leaves it behind.
-/

namespace Osdns

open Interaction
open Interaction.Fallible (ask value attempt)
open Engine

variable {r : ResourceId} {L : LeaseId} {b : FakeState} {c c₀ d : Cell}
variable {F : Faults} {i : SessionId} {m : ManagerId} {caps : Capabilities} {α : Type}

/-! ## The invariant of a live record -/

def LiveState.isRepair {D I : Type} : LiveState D I → Bool
  | .repair _ => true
  | _ => false

/-- Committed or unmutated: nothing is outstanding. -/
def LiveState.isSettled {D I : Type} : LiveState D I → Bool
  | .committed => true
  | .unmutated => true
  | _ => false

/-- The state `persist_live` gives a record. -/
def JournalRecord.settledState (record : FakeRecord) : FakeLiveState :=
  if record.phase = .applied then .committed else .unmutated

/-- A rollback and the record that takes over when it is done. -/
structure ResumeOK (r : ResourceId) (L : LeaseId) (record : FakeRecord)
    (pending : PendingRollback FakeSnapshotData) (resume : FakeRecord) (c : Cell) : Prop where
  rollback : RollbackOK r L record.before.data.state pending c
  resumed : RecordOK r L resume c
  applied : resume.phase = .applied →
    stateMatches pending.target.data.state resume.desired = true
  prepared : resume.phase = .prepared → pending.target.data.state = record.before.data.state
  before : resume.before = record.before
  identity : resume.identity = record.identity

/-- What a runtime state says about the native state. -/
def StateOK (r : ResourceId) (L : LeaseId) (record : FakeRecord) : FakeLiveState → Cell → Prop
  | .committed, c => record.phase = .applied ∧ ∃ p, record.applied = some p ∧
      Expresses r L record.before.data.state record.desired p c
  | .unmutated, c => Ours L c → c.state = some record.before.data.state
  | .prepared, _ => False
  | .verified mutation, c =>
      Expresses r L record.before.data.state record.desired mutation.persist c
  | .compensating pending resume, c => ResumeOK r L record pending resume c
  | .repair next, c => next.isRepair = false ∧ StateOK r L record next c

/-- The durable record of the lease exists, or its removal was attempted: because the lease was
given up, or over a native state it no longer changes. -/
def Logged (L : LeaseId) (b : FakeState) (c : Cell) : Prop :=
  (c.record L).isSome ∨
    (Retired L c ∧ (GivenUp L c ∨ (Ours L c → c.state = some b)))

/-- The invariant of a live record when no operation works on it. -/
structure LiveOK (r : ResourceId) (L : LeaseId) (live : FakeLive) (c : Cell) : Prop where
  record : RecordOK r L live.record c
  state : StateOK r L live.record live.state c
  logged : Logged L live.record.before.data.state c
  same : live.state.isRepair = false →
    ∀ record, c.record L = some record →
      record.before.data.state = live.record.before.data.state
  agree : ¬ Retired L c → live.state.isSettled = true → c.confirmed L = some live.record

section Stable

variable {record resume : FakeRecord} {pending : PendingRollback FakeSnapshotData}

lemma ResumeOK.shift (h : Shift c d) (hc : ResumeOK r L record pending resume c) :
    ResumeOK r L record pending resume d :=
  { hc with
    rollback := hc.rollback.shift h
    resumed := hc.resumed.shift h }

lemma StateOK.shift (h : Shift c d) {state : FakeLiveState} (hc : StateOK r L record state c) :
    StateOK r L record state d := by
  induction state with
  | committed =>
      obtain ⟨hphase, p, hp, he⟩ := hc
      exact ⟨hphase, p, hp, he.shift h⟩
  | unmutated => exact h.state_of_ours hc
  | prepared => exact hc
  | verified mutation => exact Expresses.shift h hc
  | compensating pending resume => exact ResumeOK.shift h hc
  | repair next ih => exact ⟨hc.1, ih hc.2⟩

lemma Logged.drift (h : Drift c d) (hc : Logged L b c) : Logged L b d := by
  unfold Logged
  rw [h.record]
  exact hc.imp_right fun ⟨hr, hg⟩ =>
    ⟨hr.drift h, hg.imp (GivenUp.drift h) fun ho => h.shift.state_of_ours ho⟩

lemma Logged.stable : Stable interference (Logged L b) := fun h hc => hc.drift h.toDrift

lemma LiveOK.drift {live : FakeLive} (h : Drift c d) (hc : LiveOK r L live c) :
    LiveOK r L live d :=
  { record := hc.record.shift h.shift
    state := hc.state.shift h.shift
    logged := hc.logged.drift h
    same := by
      rw [h.record]
      exact hc.same
    agree := by
      unfold Retired
      rw [h.removals, h.confirmed]
      exact hc.agree }

lemma LiveOK.stable {live : FakeLive} : Stable interference (LiveOK r L live) := fun h hc =>
  hc.drift h.toDrift

end Stable

lemma StateOK.on {record : FakeRecord} {state : FakeLiveState} (h : StateOK r L record state c) :
    state.On r L := by
  induction state with
  | compensating pending resume => exact ResumeOK.resumed h |>.on
  | repair next ih => exact ih h.2
  | _ => trivial

lemma LiveOK.on {live : FakeLive} (h : LiveOK r L live c) : live.On r L :=
  ⟨h.record.on, h.state.on⟩

/-! ## Journal and memory -/

/-- What a program keeps besides native state, journal and live records. -/
structure Framed (c d : Cell) : Prop where
  lock : d.lock = c.lock
  active : d.active = c.active
  removals : d.removals = c.removals

lemma Framed.refl (c : Cell) : Framed c c := ⟨rfl, rfl, rfl⟩

lemma Framed.trans (h₁ : Framed c₀ c) (h₂ : Framed c d) : Framed c₀ d :=
  ⟨h₂.lock.trans h₁.lock, h₂.active.trans h₁.active, h₂.removals.trans h₁.removals⟩

lemma Framed.stable : Stable interference (Framed c₀) := fun h hc =>
  hc.trans ⟨h.lock, h.active, h.removals⟩

lemma SameMemory.framed (h : SameMemory c d) : Framed c d := ⟨h.lock, h.active, h.removals⟩

/-- The invariant, with locks and registrations as in `c₀`. -/
structure Closed (r : ResourceId) (c₀ c : Cell) : Prop where
  inv : CellInv r c
  lock : c.lock = c₀.lock
  active : c.active = c₀.active

lemma Closed.stable : Stable interference (Closed r c₀) := fun h hc =>
  ⟨CellInv.stable h hc.inv, h.lock.trans hc.lock, h.active.trans hc.active⟩

/-- No removal of the lease's record was attempted after its native effect was undone. -/
def Intact (L : LeaseId) (c : Cell) : Prop := (L, Removal.settled) ∉ c.removals

/-- A step of the journal of `L`: nothing else changes. -/
structure Relogged (L : LeaseId) (c d : Cell) : Prop where
  state : d.state = c.state
  generation : d.generation = c.generation
  writer : d.writer = c.writer
  base : d.base = c.base
  log : d.log = c.log
  lock : d.lock = c.lock
  live : d.live = c.live
  active : d.active = c.active
  removals : ∀ L' removal, (L', removal) ∈ c.removals → (L', removal) ∈ d.removals
  retired : ∀ L', L' ≠ L → Retired L' d → Retired L' c
  record : ∀ L', L' ≠ L → d.record L' = c.record L'
  confirmed : ∀ L', L' ≠ L → d.confirmed L' = c.confirmed L'

namespace Relogged

lemma shift (h : Relogged L c d) : Shift c d := ⟨h.base, .inl ⟨h.state, h.generation, h.writer⟩⟩

/-- A step of the journal leaves no trace of another lease. -/
lemma fresh {L' : LeaseId} (h : Relogged L c d) (hL' : L' ≠ L) (hf : Fresh L' c) : Fresh L' d :=
  ⟨by rw [h.live]; exact hf.live, (h.record L' hL').trans hf.record,
    (h.confirmed L' hL').trans hf.confirmed, fun ho => hf.writer (h.writer.symm.trans ho),
    fun hd => hf.removals (h.retired L' hL' hd)⟩

/-- A step of the journal of a known lease is accounted for. -/
lemma accounted (h : Relogged L c d) (hL : Known i L c) : Accounted i c d where
  mutation m L' live _ _ _ cause old new time hd := absurd (h.log.symm.trans hd) (by simp)
  release L' live live' hl hb hl' hb' := by
    rw [h.live, hl, Option.some.injEq] at hl'
    rw [hl', hb'] at hb
    exact absurd hb (by simp)
  fresh L' hL' hf := by
    exact h.fresh (fun he => hL.not_fresh (he ▸ hL') (he ▸ hf)) hf
  lock := h.lock
  active := h.active

/-- A step of the journal keeps the invariant of the cell when what it leaves of `L` fits. -/
lemma inv (h : Relogged L c d) (hinv : CellInv r c)
    (hrec : ∀ record, d.record L = some record → RecordOK r L record c)
    (hlog : Ours L c → c.state = some c.base ∨ GivenUp L d ∨ (d.record L).isSome)
    (hconf : ∀ record, d.confirmed L = some record → d.record L = some record) :
    CellInv r d := by
  refine ⟨fun L' record hr => ?_, fun L' ho => ?_, fun L' record hc => ?_,
    fun L' live hl => hinv.live L' live (h.live ▸ hl)⟩
  · by_cases hL : L' = L
    · subst hL
      exact (hrec record hr).shift h.shift
    · rw [h.record L' hL] at hr
      exact (hinv.records L' record hr).shift h.shift
  · have hoc : Ours L' c := h.writer.symm.trans ho
    rw [h.state, h.base]
    by_cases hL : L' = L
    · subst hL
      exact hlog hoc
    · rw [h.record L' hL]
      refine (hinv.logged L' hoc).imp id (Or.imp_left ?_)
      exact fun ⟨removal, hne, hmem⟩ => ⟨removal, hne, h.removals L' removal hmem⟩
  · by_cases hL : L' = L
    · subst hL
      exact hconf record hc
    · rw [h.record L' hL]
      rw [h.confirmed L' hL] at hc
      exact hinv.confirmed L' record hc

end Relogged

@[simp] lemma Cell.record_publish {record : FakeRecord} {L : LeaseId} :
    (c.publish record).record L = if L = record.leaseId then some record else c.record L := by
  unfold Cell.record Cell.publish
  split
  · rename_i h
    subst h
    exact AList.lookup_insert _
  · rename_i h
    exact AList.lookup_insert_ne h

/-- The effect of an attempt to write a record of `L`. -/
structure Written (r : ResourceId) (L : LeaseId) (record : FakeRecord) (success : Prop)
    (c d : Cell) : Prop where
  inv : CellInv r d
  shift : Shift c d
  frame : Framed c d
  live : d.live = c.live
  journal : d.record L = some record ∨ ¬ success ∧ d.record L = c.record L
  confirmed : success → d.confirmed L = some record
  fresh : ∀ L', L' ≠ L → Fresh L' c → Fresh L' d

lemma sat_journalWrite {record : FakeRecord}
    {k : Except Error Unit → Engine FakeSnapshotData FakeIdentity α} {Q : α → Cell → Prop}
    (hinv : CellInv r c) (hr : RecordOK r L record c) (hknown : Known i L c)
    (hk : ∀ d answer, (answer = .ok () ∨ F (.engine (.journalWrite record))) →
      Written r L record (answer = .ok ()) c d → EngineSat F i m r (k answer) Q d) :
    EngineSat F i m r (journalWrite record >>= k) Q c := by
  intro c' hc' answer d hd
  obtain rfl := hr.lease
  -- What all three outcomes have in common.
  have hstep : ∀ e : Cell, Relogged record.leaseId c' e →
      (e.record record.leaseId = some record ∨
        answer ≠ .ok () ∧ e.record record.leaseId = c'.record record.leaseId) →
      (∀ record', e.confirmed record.leaseId = some record' →
        e.record record.leaseId = some record') →
      (answer = .ok () → e.confirmed record.leaseId = some record) →
      (e.removals = c'.removals) → (answer = .ok () ∨ F (.engine (.journalWrite record))) →
      (CellInv r e ∧ Accounted i c' e) ∧ EngineSat F i m r (k answer) Q e := by
    intro e he hjournal hconf hok hremovals hF
    have hinv' := CellInv.stable hc' hinv
    have hinve : CellInv r e := by
      refine he.inv hinv' (fun record' h => ?_) (fun ho => ?_) hconf
      · rcases hjournal with hj | ⟨-, hj⟩
        · obtain rfl := Option.some.inj (hj.symm.trans h)
          exact RecordOK.stable hc' hr
        · exact hinv'.records _ _ (hj.symm.trans h)
      · refine (hinv'.logged _ ho).imp id ?_
        rcases hjournal with hj | ⟨-, hj⟩
        · exact fun _ => .inr (by rw [hj]; rfl)
        · rw [hj]
          exact Or.imp_left fun ⟨removal, hne, hmem⟩ => ⟨removal, hne, hremovals ▸ hmem⟩
    refine ⟨⟨hinve, he.accounted (Known.stable hc' hknown)⟩, hk e answer hF ?_⟩
    refine ⟨hinve, ⟨he.base.trans hc'.base, hc'.native.trans he.shift.native⟩,
      ⟨he.lock.trans hc'.lock, he.active.trans hc'.active, hremovals.trans hc'.removals⟩,
      he.live.trans hc'.live, ?_, hok, fun L' hL' hf => he.fresh hL' (Fresh.stable hc' hf)⟩
    exact hjournal.imp_right fun h => ⟨h.1, h.2.trans (hc'.record _)⟩
  have hpub : ∀ confirmed, Relogged record.leaseId c'
      { c'.publish record with
        confirmed := Function.update c'.confirmed record.leaseId confirmed } := fun confirmed =>
    ⟨rfl, rfl, rfl, rfl, rfl, rfl, rfl, rfl, fun _ _ h => h, fun _ _ h => h,
      fun L' hL' => Cell.record_publish.trans (if_neg hL'),
      fun L' hL' => Function.update_of_ne hL' _ _⟩
  have hself : (c'.publish record).record record.leaseId = some record :=
    Cell.record_publish.trans (if_pos rfl)
  rcases Cell.engineHandler_journalWrite hd hr.resource with
    ⟨rfl, rfl⟩ | ⟨⟨error, rfl⟩, hF, e, rfl | rfl, rfl⟩
  · refine hstep _ (hpub _) (.inl hself) (fun record' h => ?_) (fun _ => ?_) rfl (.inl rfl)
    · simp only [Function.update_self] at h
      exact hself.trans h
    · exact Function.update_self ..
  · refine hstep _ ⟨rfl, rfl, rfl, rfl, rfl, rfl, rfl, rfl, fun _ _ h => h, fun _ _ h => h,
      fun _ _ => rfl, fun L' hL' => Function.update_of_ne hL' _ _⟩ (.inr ⟨by simp, rfl⟩)
      (fun record' h => ?_) (fun h => absurd h (by simp)) rfl (.inr hF)
    simp only [Function.update_self] at h
    exact absurd h (by simp)
  · refine hstep _ (hpub _) (.inl hself) (fun record' h => ?_) (fun h => absurd h (by simp)) rfl
      (.inr hF)
    simp only [Function.update_self] at h
    exact absurd h (by simp)

/-- The effect of an attempt to remove the record of `L`. -/
structure Removed (r : ResourceId) (L : LeaseId) (removal : Removal) (success : Prop)
    (c d : Cell) : Prop where
  inv : CellInv r d
  shift : Shift c d
  lock : d.lock = c.lock
  active : d.active = c.active
  removals : d.removals = (L, removal) :: c.removals
  live : d.live = c.live
  journal : d.record L = none ∨ ¬ success ∧ d.record L = c.record L
  fresh : ∀ L', L' ≠ L → Fresh L' c → Fresh L' d

/-- A record may be removed when it was given up, or over the base content. -/
lemma sat_journalRemove {removal : Removal} {resource : ResourceId}
    {k : Except Error Unit → Engine FakeSnapshotData FakeIdentity α} {Q : α → Cell → Prop}
    (hres : resource = r) (hinv : CellInv r c) (hknown : Known i L c)
    (hsettled : removal = .settled → Ours L c → c.state = some c.base)
    (hk : ∀ d answer, (answer = .ok () ∨ F (.engine (.journalRemove L r removal))) →
      Removed r L removal (answer = .ok ()) c d → EngineSat F i m r (k answer) Q d) :
    EngineSat F i m r (journalRemove L resource removal >>= k) Q c := by
  subst hres
  intro c' hc' answer d hd
  have hinv' := CellInv.stable hc' hinv
  have herase : ∀ L', (c'.journal.erase L).lookup L' = if L' = L then none else c'.record L' :=
    fun L' => by
      split
      · rename_i h
        subst h
        exact AList.lookup_erase ..
      · rename_i h
        exact AList.lookup_erase_ne h
  have hstep : ∀ journal, (journal = c'.journal.erase L ∨ answer ≠ .ok () ∧ journal = c'.journal) →
      (answer = .ok () ∨ F (.engine (.journalRemove L resource removal))) →
      d = c'.attemptRemoval L removal journal →
      (CellInv resource d ∧ Accounted i c' d) ∧ EngineSat F i m resource (k answer) Q d := by
    rintro journal hjournal hF rfl
    have hrec : ∀ L', (c'.attemptRemoval L removal journal).record L' = c'.record L' ∨
        L' = L ∧ (c'.attemptRemoval L removal journal).record L' = none := fun L' => by
      rcases hjournal with rfl | ⟨-, rfl⟩
      · by_cases hL : L' = L
        · exact .inr ⟨hL, (herase L').trans (if_pos hL)⟩
        · exact .inl ((herase L').trans (if_neg hL))
      · exact .inl rfl
    have he : Relogged L c' (c'.attemptRemoval L removal journal) :=
      ⟨rfl, rfl, rfl, rfl, rfl, rfl, rfl, rfl, fun _ _ h => List.mem_cons_of_mem _ h,
        fun L' hL' ⟨removal', hmem⟩ => ⟨removal', by
          simpa [Cell.attemptRemoval, hL'] using hmem⟩,
        fun L' hL' => (hrec L').resolve_right fun h => hL' h.1,
        fun L' hL' => Function.update_of_ne hL' _ _⟩
    have hinvd : CellInv resource (c'.attemptRemoval L removal journal) := by
      refine he.inv hinv' (fun record' h => ?_) (fun ho => ?_) fun record' h => ?_
      · rcases hrec L with hr | ⟨-, hr⟩
        · exact hinv'.records _ _ (hr.symm.trans h)
        · exact absurd (hr.symm.trans h) (by simp)
      · by_cases hs : removal = .settled
        · left
          have := hsettled hs (hc'.shift.ours ho)
          rw [(hc'.shift.engine ho).2.1, this, hc'.base]
        · exact .inr (.inl ⟨removal, hs, List.mem_cons_self ..⟩)
      · simp [Cell.attemptRemoval] at h
    refine ⟨⟨hinvd, he.accounted (Known.stable hc' hknown)⟩, hk _ answer hF ?_⟩
    refine ⟨hinvd, ⟨hc'.base, hc'.native⟩, hc'.lock, hc'.active,
      congrArg _ hc'.removals, hc'.live, ?_, fun L' hL' hf => he.fresh hL' (Fresh.stable hc' hf)⟩
    rcases hjournal with rfl | ⟨ha, rfl⟩
    · exact .inl ((herase L).trans (if_pos rfl))
    · exact .inr ⟨ha, hc'.record L⟩
  rcases Cell.engineHandler_journalRemove hd with
    ⟨rfl, rfl⟩ | ⟨⟨error, rfl⟩, hF, journal, hj, rfl⟩
  · exact hstep _ (.inl rfl) (.inl rfl) rfl
  · exact hstep journal (hj.symm.imp_right fun h => ⟨by simp, h⟩) (.inr hF) rfl

lemma sat_liveGet {ref : LiveRef} {live : FakeLive}
    {k : FakeLive → Engine FakeSnapshotData FakeIdentity α} {Q : α → Cell → Prop}
    (href : ref = ⟨L, r⟩) (hinv : CellInv r c) (hlive : c.live L = some live)
    (hk : ∀ d, Interference c d → EngineSat F i m r (k live) Q d) :
    EngineSat F i m r (liveGet ref >>= k) Q c := by
  subst href
  intro c' hc' answer d hd
  obtain ⟨rfl, ha⟩ := Cell.engineHandler_liveGet hd
  obtain rfl : live = answer := Option.some.inj (hlive.symm.trans ((congrFun hc'.live L) ▸ ha))
  exact ⟨⟨CellInv.stable hc' hinv, .refl ..⟩, hk _ hc'⟩

/-- The cell after a live record was set. -/
def Cell.setLive (c : Cell) (L : LeaseId) (live : FakeLive) : Cell :=
  { c with live := Function.update c.live L (some live) }

lemma Cell.shift_setLive (c : Cell) (live : FakeLive) : Shift c (c.setLive L live) :=
  ⟨rfl, .inl ⟨rfl, rfl, rfl⟩⟩

lemma CellInv.setLive {live : FakeLive} (h : CellInv r c) (hon : live.On r L) :
    CellInv r (c.setLive L live) := by
  refine ⟨fun L' record hr => (h.records L' record hr).shift (c.shift_setLive live),
    h.logged, h.confirmed, fun L' live' hl => ?_⟩
  by_cases hL : L' = L
  · subst hL
    obtain rfl : live = live' := by simpa [Cell.setLive] using hl
    exact hon
  · exact h.live L' live' ((Function.update_of_ne hL _ _).symm.trans hl)

lemma LiveOK.setLive {live live' : FakeLive} (h : LiveOK r L live c) :
    LiveOK r L live (c.setLive L live') :=
  { record := h.record.shift (c.shift_setLive live')
    state := h.state.shift (c.shift_setLive live')
    logged := h.logged
    same := h.same
    agree := h.agree }

/-- A live record may be set while it is not blocked, to a blocked state, or to the record that
was written last. -/
lemma sat_liveSet {ref : LiveRef} {live : FakeLive}
    {k : Unit → Engine FakeSnapshotData FakeIdentity α} {Q : α → Cell → Prop}
    (href : ref = ⟨L, r⟩) (hinv : CellInv r c) (hon : live.On r L) (hknown : Known i L c)
    (hfree : (∀ old, c.live L = some old → old.state.blocked = false) ∨
      live.state.blocked = true ∨ c.confirmed L = some live.record)
    (hk : ∀ d, Interference c d → EngineSat F i m r (k ()) Q (d.setLive L live)) :
    EngineSat F i m r (liveSet ref live >>= k) Q c := by
  subst href
  intro c' hc' answer d hd
  obtain rfl : d = c'.setLive L live := Cell.engineHandler_liveSet hd
  refine ⟨⟨(CellInv.stable hc' hinv).setLive hon, ?_⟩, hk _ hc'⟩
  have hlive : ∀ L', L' ≠ L → (c'.setLive L live).live L' = c'.live L' := fun L' hL' =>
    Function.update_of_ne hL' _ _
  refine ⟨⟨fun m' L' live' _ _ _ cause old new time h => absurd h (by simp [Cell.setLive]),
    fun L' old live' hl hb hl' hb' => ?_, fun L' hL' h => ?_⟩, rfl, rfl⟩
  · by_cases hL : L' = L
    · subst hL
      obtain rfl : live = live' := by simpa [Cell.setLive] using hl'
      rcases hfree with hf | hf | hf
      · rw [hf old (hc'.live ▸ hl)] at hb
        exact absurd hb (by simp)
      · rw [hf] at hb'
        exact absurd hb' (by simp)
      · exact (congrFun hc'.confirmed L').trans hf
    · rw [hlive L' hL, hl, Option.some.injEq] at hl'
      rw [hl', hb'] at hb
      exact absurd hb (by simp)
  · have hne : L' ≠ L := fun he => (Known.stable hc' hknown).not_fresh (he ▸ hL') (he ▸ h)
    exact ⟨(hlive L' hne).trans h.live, h.record, h.confirmed, h.writer, h.removals⟩

end Osdns
