import Osdns.Serial.Apply

/-!
# The update transaction on one resource

`transactUpdate` seen from the cell of one resource `r`.  An entry of the update is first
`Owned`, its live record committed; while the update works on it, it is `Preparing`, and once
its native state was moved to the new plan, `Moved`.  Whatever fails, every entry is settled into
a live record over the same `before`.

The only checkpoint the update needs is `afterUpdatePrepared`: a hook that fails there leaves
live records that take their resources as unmutated.
-/

namespace Osdns

open Interaction
open Interaction.Fallible (ask value attempt)
open Engine

variable {r : ResourceId} {L : LeaseId} {c c₀ d : Cell}
variable {F : Faults} {i : SessionId} {m : ManagerId} {caps : Capabilities} {α β : Type}
variable {plan : NormalizedConfig}

variable {e : FakeEntry} {entries : List FakeEntry}

/-- The live record of an entry names the lease and the resource. -/
structure UpdateEntry.On (L : LeaseId) (e : FakeEntry) : Prop where
  lease : e.ref.lease = L
  old : e.old.On e.ref.resource L

lemma UpdateEntry.On.ref_eq (h : e.On L) : e.ref = ⟨L, e.ref.resource⟩ := by
  rw [← h.lease]

/-- The record of an entry with the intent of the update. -/
def UpdateEntry.intent (e : FakeEntry) (plan : NormalizedConfig) : FakeRecord :=
  { e.old with desired := plan, phase := .prepared }

/-! ## What an update knows of its resource -/

/-- An entry whose live record is as the update found it. -/
structure Owned (r : ResourceId) (L : LeaseId) (c₀ : Cell) (e : FakeEntry) (c : Cell) : Prop where
  holding : Holding r L c₀ ⟨e.old, .committed⟩ c
  applied : e.old.applied = some e.applied
  kept : Kept L c

/-- What the update keeps of the lease while it works: its memory is some unblocked live record
over the old `before`, and its journal speaks of that `before`. -/
structure Tracked (r : ResourceId) (L : LeaseId) (c₀ : Cell) (e : FakeEntry) (live : FakeLive)
    (c : Cell) : Prop where
  inv : CellInv r c
  frame : Framed c₀ c
  live_eq : c.live L = some live
  free : live.state.blocked = false
  before : live.record.before = e.old.before
  identity : live.record.identity = e.old.identity
  record : RecordOK r L live.record c
  old : RecordOK r L e.old c
  phase : e.old.phase = .applied
  kept : Kept L c
  same : ∀ record, c.record L = some record →
    record.before.data.state = e.old.before.data.state
  target : Issued r L e.old.before.data.state e.applied c
  expresses : stateMatches e.applied.data.state e.old.desired = true

namespace Tracked

variable {live : FakeLive}

lemma stable : Stable interference (Tracked r L c₀ e live) := fun h hc =>
  { hc with
    inv := CellInv.stable h hc.inv
    frame := Framed.stable h hc.frame
    live_eq := by rw [h.live, hc.live_eq]
    record := hc.record.shift h.shift
    old := hc.old.shift h.shift
    kept := Kept.stable h hc.kept
    same := by
      rw [h.record]
      exact hc.same
    target := hc.target.shift h.shift }

lemma known (h : Tracked r L c₀ e live c) : Known i L c := .inr (.inl (by rw [h.live_eq]; rfl))

/-- The start of a mutation. -/
lemma working (h : Tracked r L c₀ e live c) : Working r i L e.old.before.data.state c c where
  inv := h.inv
  backed := ⟨fun ho => (h.old.base ho).symm, h.same⟩
  unblocked _ live' _ hl := by
    obtain rfl := Option.some.inj (h.live_eq.symm.trans hl)
    exact h.free
  known := h.known
  memory := .refl c
  later := le_rfl
  issued _ hp := hp
  moved := .inl (.refl c)
  fresh _ _ h := h

/-- A mutation leaves the entry tracked. -/
lemma mutated (h : Tracked r L c₀ e live c)
    (hw : Working r i L e.old.before.data.state c d) : Tracked r L c₀ e live d :=
  { h with
    inv := hw.inv
    frame := h.frame.trans hw.memory.framed
    live_eq := by rw [hw.memory.live, h.live_eq]
    record := h.record.working (by rw [h.before]) hw
    old := h.old.working rfl hw
    kept := hw.memory.kept h.kept
    same := by
      intro record hrec
      rw [hw.memory.record] at hrec
      exact h.same record hrec
    target := hw.issued _ h.target }

/-- Another unblocked live record over the old `before`. -/
lemma setLive {live' : FakeLive} (h : Tracked r L c₀ e live c)
    (hfree : live'.state.blocked = false) (hb : live'.record.before = e.old.before)
    (hi : live'.record.identity = e.old.identity) (hr : RecordOK r L live'.record c) (hon : live'.state.On r L) :
    Tracked r L c₀ e live' (c.setLive L live') :=
  have hs := c.shift_setLive (L := L) live'
  { h with
    inv := h.inv.setLive ⟨hr.on, hon⟩
    frame := h.frame.trans ⟨rfl, rfl, rfl⟩
    live_eq := by simp [Cell.setLive]
    free := hfree
    before := hb
    identity := hi
    record := hr.shift hs
    old := h.old.shift hs
    target := h.target.shift hs }

end Tracked

lemma Owned.stable : Stable interference (Owned r L c₀ e) := fun h hc =>
  ⟨Holding.stable h hc.holding, hc.applied, Kept.stable h hc.kept⟩

/-- The verified state of an owned entry. -/
lemma Owned.expresses (h : Owned r L c₀ e c) :
    Expresses r L e.old.before.data.state e.old.desired e.applied c := by
  obtain ⟨-, p, hp, he⟩ := h.holding.ok.state
  obtain rfl : p = e.applied := Option.some.inj (hp.symm.trans h.applied)
  exact he

lemma Owned.tracked (h : Owned r L c₀ e c) : Tracked r L c₀ e ⟨e.old, .committed⟩ c where
  inv := h.holding.inv
  frame := h.holding.frame
  live_eq := h.holding.live_eq
  free := rfl
  before := rfl
  identity := rfl
  record := h.holding.ok.record
  old := h.holding.ok.record
  phase := h.holding.ok.state.1
  kept := h.kept
  same := h.holding.ok.same rfl
  target := h.expresses.issued
  expresses := h.expresses.expresses

/-- An entry under preparation: its native state is still the one the update found. -/
structure Preparing (r : ResourceId) (L : LeaseId) (c₀ : Cell) (e : FakeEntry) (live : FakeLive)
    (c : Cell) : Prop where
  tracked : Tracked r L c₀ e live c
  applied : e.old.applied = some e.applied
  names : Names r L e.applied c

lemma Preparing.stable {live : FakeLive} : Stable interference (Preparing r L c₀ e live) :=
  fun h hc => ⟨Tracked.stable h hc.tracked, hc.applied, hc.names.shift h.shift⟩

lemma Owned.preparing (h : Owned r L c₀ e c) : Preparing r L c₀ e ⟨e.old, .committed⟩ c :=
  ⟨h.tracked, h.applied, h.expresses.names⟩

/-- An entry whose native state was moved to the new plan. -/
structure Moved (r : ResourceId) (L : LeaseId) (c₀ : Cell) (plan : NormalizedConfig)
    (e : FakeEntry) (mutation : VerifiedMutation FakeSnapshotData) (c : Cell) : Prop where
  tracked : Tracked r L c₀ e ⟨e.intent plan, .prepared⟩ c
  expresses : Expresses r L e.old.before.data.state plan mutation.persist c

lemma Moved.stable {mutation : VerifiedMutation FakeSnapshotData} :
    Stable interference (Moved r L c₀ plan e mutation) := fun h hc =>
  ⟨Tracked.stable h hc.tracked, hc.expresses.shift h.shift⟩

/-- An entry of a failed update, with what its resource was left with. -/
def Failed (r : ResourceId) (L : LeaseId) (c₀ : Cell) (e : FakeEntry)
    (residue : MutationResidue FakeSnapshotData) (c : Cell) : Prop :=
  (∃ live, Tracked r L c₀ e live c) ∧ e.old.applied = some e.applied ∧
    Residue r L e.old.before.data.state e.applied residue c

lemma Failed.stable {residue : MutationResidue FakeSnapshotData} :
    Stable interference (Failed r L c₀ e residue) := fun h hc =>
  ⟨hc.1.imp fun _ ht => Tracked.stable h ht, hc.2.1, Residue.stable h hc.2.2⟩

/-! ## Settling an entry -/

lemma Settled.rollback {b : FakeState} {target : FakeSnapshot} {identity : Option FakeSnapshot}
    (h : Settled r L b target identity c) (ht : Issued r L b target c) :
    RollbackOK r L b ⟨identity, target⟩ c :=
  ⟨ht, fun p hp => ⟨(h.held p hp).1, (h.held p hp).2.1⟩, fun hn ho => absurd ho (h.lost hn)⟩

/-- The old record of an entry whose native state is untouched may be published again. -/
lemma Preparing.candidate {live : FakeLive} (h : Preparing r L c₀ e live c) :
    Candidate r L e.old e.old.settledState c := by
  refine ⟨?_, h.tracked.kept.logged, h.tracked.old⟩
  rw [JournalRecord.settledState, if_pos h.tracked.phase]
  exact ⟨h.tracked.phase, e.applied, h.applied, h.tracked.target, h.names, h.tracked.expresses⟩

/-- The `restored` and `unchanged` branches of `settleUpdated`. -/
lemma sat_settleWith {candidate : FakeRecord} (hr : e.ref = ⟨L, r⟩) (ht : Tracked r L c₀ e live c)
    (hb : candidate.before = e.old.before)
    (hcand : Candidate r L candidate candidate.settledState c) :
    EngineSat F i m r (do
      match ← (persistLive e.ref candidate).run with
      | .ok _ => return []
      | .error error => return [error]) (fun _ : List Error => Held r L c₀ e.old.before) c := by
  refine sat_bind (sat_persistLive hr ht.inv ht.frame ht.known hcand) fun answer d hd => ?_
  cases answer with
  | ok _ => exact sat_pure Held.stable ⟨_, hd, hb⟩
  | error error => exact sat_pure Held.stable ⟨_, hd, hb⟩

/-- `settleUpdated` leaves the live record of the entry in order. -/
lemma sat_settleUpdated {residue : MutationResidue FakeSnapshotData} (hon : e.On L)
    (hr : e.ref.resource = r) (h : Failed r L c₀ e residue c) :
    EngineSat F i m r (settleUpdated (fakeBackend caps) e residue)
      (fun _ => Held r L c₀ e.old.before) c := by
  obtain ⟨⟨live, ht⟩, happlied, hres⟩ := h
  have href : e.ref = ⟨L, r⟩ := hr ▸ hon.ref_eq
  cases residue with
  | unchanged => exact sat_settleWith href ht rfl (Preparing.candidate ⟨ht, happlied, hres⟩)
  | restored identity =>
      have hresume : ResumeOK r L e.old ⟨identity, e.applied⟩ e.old c :=
        ⟨hres.rollback ht.target, ht.old, fun _ => ht.expresses,
          fun hphase => absurd (ht.phase.symm.trans hphase) (by simp), rfl, rfl⟩
      have hcand := hresume.candidate ht.old ht.kept.logged hres
      have heq : resumeWith e.old identity =
          { e.old with
            applied := identity
            phase := if identity.isNone then .prepared else e.old.phase } := by
        rw [resumeWith, if_pos ht.phase, ht.phase]
      rw [heq] at hcand
      exact sat_settleWith href ht rfl hcand
  | pending pending =>
      obtain ⟨hp, htarget⟩ := hres
      have hresume : ResumeOK r L live.record pending e.old c :=
        ⟨ht.before ▸ hp, ht.old, fun _ => by rw [htarget]; exact ht.expresses,
          fun hphase => absurd (ht.phase.symm.trans hphase) (by simp), ht.before.symm,
          ht.identity.symm⟩
      refine sat_bind (sat_retainCompensation href ht.inv ht.frame ht.live_eq ht.free ht.record
        hresume ht.kept.logged) fun answer d hd => ?_
      rw [ht.before] at hd
      cases answer with
      | ok _ => exact sat_pure Held.stable hd
      | error error => exact sat_pure Held.stable hd

lemma engineOn_settleUpdated {residue : MutationResidue FakeSnapshotData} (hon : e.On L) :
    EngineOn e.ref.resource (settleUpdated (fakeBackend caps) e residue) :=
  EngineFor.on (engineFor_settleUpdated ⟨hon.lease, rfl, hon.old⟩)

/-! ## The loops over all entries -/

/-- What an update leaves of its entries. -/
def Rested (r : ResourceId) (L : LeaseId) (c₀ : Cell) (entries : List FakeEntry) (c : Cell) :
    Prop :=
  CellInv r c ∧ Framed c₀ c ∧
    ∀ e ∈ entries, e.ref.resource = r → Held r L c₀ e.old.before c

lemma Rested.stable : Stable interference (Rested r L c₀ entries) := fun h hc =>
  ⟨CellInv.stable h hc.1, Framed.stable h hc.2.1, fun e he hr => Held.stable h (hc.2.2 e he hr)⟩

lemma Held.inv {before : FakeSnapshot} (h : Held r L c₀ before c) : CellInv r c :=
  h.choose_spec.1.inv

lemma Held.frame {before : FakeSnapshot} (h : Held r L c₀ before c) : Framed c₀ c :=
  h.choose_spec.1.frame

/-- The entries of an update, on different resources of one lease. -/
structure Distinct (L : LeaseId) (entries : List FakeEntry) : Prop where
  on : ∀ e ∈ entries, e.On L
  nodup : (entries.map (·.ref.resource)).Nodup

lemma Distinct.unique (h : Distinct L entries) {e e' : FakeEntry} (he : e ∈ entries)
    (he' : e' ∈ entries) (heq : e.ref.resource = e'.ref.resource) : e = e' :=
  List.inj_on_of_nodup_map h.nodup he he' heq

/-- From what a loop leaves of `r` to what it leaves of the entries. -/
lemma rested_of_loop {P : Cell → Prop} (h : Distinct L entries)
    (hP : ∀ c, P c → CellInv r c ∧ Framed c₀ c)
    (hc : (r ∈ entries.map (·.ref.resource) →
        ∃ e ∈ entries, e.ref.resource = r ∧ Held r L c₀ e.old.before c) ∧
      (r ∉ entries.map (·.ref.resource) → P c)) : Rested r L c₀ entries c := by
  by_cases hr : r ∈ entries.map (·.ref.resource)
  · obtain ⟨e, he, her, hheld⟩ := hc.1 hr
    exact ⟨hheld.inv, hheld.frame, fun e' he' her' => by
      rwa [h.unique he' he (her'.trans her.symm)]⟩
  · obtain ⟨hinv, hframe⟩ := hP c (hc.2 hr)
    exact ⟨hinv, hframe, fun e he her => absurd (her ▸ List.mem_map_of_mem he) hr⟩

lemma persistOlds_performs :
    Performs (fun e : FakeEntry => (persistLive e.ref e.old).run) persistOlds where
  nil := ⟨[], rfl⟩
  cons e entries := by
    refine ⟨fun a b => Except.casesOn (motive := fun _ => List Error) a (· :: b) fun _ => b, ?_⟩
    rw [persistOlds]
    congr 1
    funext a
    cases a with
    | ok _ => exact (bind_pure _).symm
    | error error => rfl

/-- Entries under preparation, in whatever state their live records are. -/
def AllPreparing (r : ResourceId) (L : LeaseId) (c₀ : Cell) (entries : List FakeEntry) (c : Cell) :
    Prop :=
  CellInv r c ∧ Framed c₀ c ∧
    ∀ e ∈ entries, e.ref.resource = r → ∃ live, Preparing r L c₀ e live c

lemma AllPreparing.stable : Stable interference (AllPreparing r L c₀ entries) := fun h hc =>
  ⟨CellInv.stable h hc.1, Framed.stable h hc.2.1, fun e he hr =>
    (hc.2.2 e he hr).imp fun _ hp => Preparing.stable h hp⟩

lemma sat_persistOlds (h : Distinct L entries) (hc : AllPreparing r L c₀ entries c) :
    EngineSat F i m r (persistOlds entries) (fun _ => Rested r L c₀ entries) c := by
  refine (persistOlds_performs.sat (fun e he => ?_) h.nodup AllPreparing.stable
    (Q := fun d => ∃ e ∈ entries, e.ref.resource = r ∧ Held r L c₀ e.old.before d)
    (fun hst ⟨e, he, hr, hh⟩ => ⟨e, he, hr, Held.stable hst hh⟩) (fun d hd => hd.1)
    (fun d ⟨_, _, _, hh⟩ => hh.inv) (fun e he hr d hd => ?_) hc).mono fun _ d hd =>
    rested_of_loop h (fun d hd => ⟨hd.1, hd.2.1⟩) hd
  · exact (h.on e he).ref_eq ▸ engineOn_persistLive (h.on e he).old
  · obtain ⟨live, hp⟩ := hd.2.2 e he hr
    have ht := hp.tracked
    refine (sat_persistLive (hr ▸ (h.on e he).ref_eq) ht.inv ht.frame ht.known
      hp.candidate).mono fun _ u hu => ⟨e, he, hr, _, hu, rfl⟩

/-! ## Resolving the entries -/

/-- References to live records of one lease on different resources. -/
structure Refs (L : LeaseId) (refs : List LiveRef) : Prop where
  lease : ∀ ref ∈ refs, ref.lease = L
  nodup : (refs.map (·.resource)).Nodup

lemma Refs.tail {ref : LiveRef} {refs : List LiveRef} (h : Refs L (ref :: refs)) : Refs L refs :=
  ⟨fun x hx => h.lease x (List.mem_cons_of_mem ref hx), (List.nodup_cons.mp h.nodup).2⟩

lemma Refs.distinct {refs : List LiveRef} (h : Refs L refs) (hon : ∀ e ∈ entries, e.On L)
    (heq : entries.map (·.ref) = refs) : Distinct L entries := by
  refine ⟨hon, ?_⟩
  have := h.nodup
  rwa [← heq, List.map_map] at this

/-- The entries found for `refs`. -/
def Listed (L : LeaseId) (refs : List LiveRef) (answer : Except Error (List FakeEntry)) : Prop :=
  ∀ entries, answer = .ok entries → (∀ e ∈ entries, e.On L) ∧ entries.map (·.ref) = refs

lemma Listed.error {refs : List LiveRef} {error : Error} : Listed L refs (.error error) :=
  fun _ h => absurd h (by simp)

lemma Listed.cons {refs : List LiveRef} {ref : LiveRef} (he : e.On L) (href : e.ref = ref)
    (h : Listed L refs (.ok entries)) : Listed L (ref :: refs) (.ok (e :: entries)) := by
  intro all hall
  obtain rfl := Except.ok.inj hall
  obtain ⟨hon, heq⟩ := h entries rfl
  refine ⟨fun x hx => ?_, by rw [List.map_cons, heq, href]⟩
  rcases List.mem_cons.mp hx with rfl | hx
  · exact he
  · exact hon x hx

/-- Resolving the live records of other resources. -/
lemma sat_resolveAll_other {refs : List LiveRef} (hinv : CellInv r c)
    (hrefs : ∀ ref ∈ refs, ref.lease = L ∧ ref.resource ≠ r) :
    EngineSat F i m r (resolveAll (fakeBackend caps) refs).run
      (fun answer d => Interference c d ∧ Listed L refs answer) c := by
  have hstable : ∀ (c : Cell) (refs : List LiveRef) (answer : Except Error (List FakeEntry)),
      Stable interference fun d => Interference c d ∧ Listed L refs answer := fun _ _ _ _ _ h hc =>
    ⟨interference.trans hc.1 h, hc.2⟩
  induction refs generalizing c with
  | nil =>
      refine sat_pure (hstable c _ _) ⟨interference.refl c, fun entries h => ?_⟩
      obtain rfl := Except.ok.inj h
      exact ⟨fun e he => absurd he (by simp), rfl⟩
  | cons ref refs ih =>
      obtain ⟨hlease, hne⟩ := hrefs ref (List.mem_cons_self ..)
      obtain ⟨lease, r'⟩ := ref
      obtain rfl := hlease
      refine Fallible.sat_bind ((engineOn_resolveLive _).sat hne hinv) (fun _ d hd => ?_)
        fun error d hd => sat_pure (hstable c _ _) ⟨hd, .error⟩
      refine sat_liveGet_other hne (CellInv.stable hd hinv) fun d' live hlive he => ?_
      replace he := interference.trans hd he
      dsimp only [ExceptT.bindCont]
      split
      · exact sat_pure (hstable c _ _) ⟨he, .error⟩
      · refine Fallible.sat_bind (ih (CellInv.stable he hinv)
          fun x hx => hrefs x (List.mem_cons_of_mem _ hx)) (fun entries u hu => ?_)
          fun error u hu => sat_pure (hstable c _ _) ⟨interference.trans he hu.1, .error⟩
        exact sat_pure (hstable c _ _) ⟨interference.trans he hu.1,
          .cons ⟨rfl, hlive.record⟩ rfl hu.2⟩

/-- What resolving all live records leaves of that of `r`. -/
def ResolvedAll (r : ResourceId) (L : LeaseId) (c₀ : Cell) (before : FakeSnapshot)
    (refs : List LiveRef) (answer : Except Error (List FakeEntry)) (c : Cell) : Prop :=
  Listed L refs answer ∧ CellInv r c ∧ Framed c₀ c ∧
    match answer with
    | .ok entries => ∀ e ∈ entries, e.ref.resource = r →
        Owned r L c₀ e c ∧ e.old.before = before
    | .error _ => r ∈ refs.map (·.resource) → Held r L c₀ before c

lemma ResolvedAll.stable {before : FakeSnapshot} {refs : List LiveRef}
    {answer : Except Error (List FakeEntry)} :
    Stable interference (ResolvedAll r L c₀ before refs answer) := fun h hc => by
  refine ⟨hc.1, CellInv.stable h hc.2.1, Framed.stable h hc.2.2.1, ?_⟩
  have h₃ := hc.2.2.2
  cases answer with
  | ok entries => exact fun e he hr => ⟨Owned.stable h (h₃ e he hr).1, (h₃ e he hr).2⟩
  | error error => exact fun hr => Held.stable h (h₃ hr)

lemma sat_resolveAll {refs : List LiveRef} {before : FakeSnapshot} (hrefs : Refs L refs)
    (hintact : Intact L c₀) (hinv : CellInv r c) (hframe : Framed c₀ c)
    (hc : r ∈ refs.map (·.resource) → Held r L c₀ before c) :
    EngineSat F i m r (resolveAll (fakeBackend caps) refs).run
      (ResolvedAll r L c₀ before refs) c := by
  induction refs generalizing c with
  | nil =>
      refine sat_pure ResolvedAll.stable ⟨fun entries h => ?_, hinv, hframe, fun e he =>
        absurd he (by simp)⟩
      obtain rfl := Except.ok.inj h
      exact ⟨fun e he => absurd he (by simp), rfl⟩
  | cons ref refs ih =>
      have hlease := hrefs.lease ref (List.mem_cons_self ..)
      obtain ⟨lease, r'⟩ := ref
      obtain rfl := hlease
      have hnodup := List.nodup_cons.mp hrefs.nodup
      by_cases hr : r' = r
      · subst hr
        obtain ⟨live, hh, rfl⟩ := hc (by simp)
        have hfail : ∀ {d : Cell} (error : Error), Held r' lease c₀ live.record.before d →
            EngineSat F i m r' (pure (.error error))
              (ResolvedAll r' lease c₀ live.record.before (⟨lease, r'⟩ :: refs)) d :=
          fun error hd => sat_pure ResolvedAll.stable ⟨.error, hd.inv, hd.frame, fun _ => hd⟩
        refine Fallible.sat_bind (sat_resolveLive rfl hh fun _ _ _ _ _ _ => hh.kept hintact)
          (fun _ d hd => ?_) fun error d hd => hfail error hd.held
        obtain ⟨live', hh', hb, hset⟩ := hd
        refine sat_liveGet rfl hh'.inv hh'.live_eq fun d' hd' => ?_
        have hhd := Holding.stable hd' hh'
        dsimp only [ExceptT.bindCont]
        split
        · exact hfail _ ⟨live', hhd, hb⟩
        · rename_i applied happlied
          have hother : ∀ x ∈ refs, x.lease = lease ∧ x.resource ≠ r' := fun x hx =>
            ⟨hrefs.lease x (List.mem_cons_of_mem _ hx), fun hxr =>
              hnodup.1 (List.mem_map.mpr ⟨x, hx, hxr⟩)⟩
          obtain ⟨record, state⟩ := live'
          cases state with
          | committed =>
              refine Fallible.sat_bind (sat_resolveAll_other hhd.inv hother)
                (fun entries u hu => ?_)
                fun error u hu => hfail _ ⟨_, Holding.stable hu.1 hhd, hb⟩
              have hhu := Holding.stable hu.1 hhd
              refine sat_pure ResolvedAll.stable ⟨.cons ⟨rfl, hhu.ok.record.on⟩ rfl hu.2,
                hhu.inv, hhu.frame, fun e he her => ?_⟩
              rcases List.mem_cons.mp he with rfl | he
              · exact ⟨⟨hhu, happlied, hhu.kept hintact⟩, hb⟩
              · obtain ⟨-, heq⟩ := hu.2 entries rfl
                have : e.ref ∈ refs := heq ▸ List.mem_map_of_mem he
                exact absurd her (hother _ this).2
          | _ => exact absurd happlied (by simp [LiveRecord.applied])
      · have htail : r ∈ (⟨lease, r'⟩ :: refs : List LiveRef).map (·.resource) →
            r ∈ refs.map (·.resource) := fun hmem =>
          (List.mem_cons.mp hmem).resolve_left fun h => hr h.symm
        have hfail : ∀ {d : Cell} (error : Error), Interference c d →
            EngineSat F i m r (pure (.error error))
              (ResolvedAll r lease c₀ before (⟨lease, r'⟩ :: refs)) d := fun error hd =>
          sat_pure ResolvedAll.stable ⟨.error, CellInv.stable hd hinv, Framed.stable hd hframe,
            fun hmem => Held.stable hd (hc hmem)⟩
        refine Fallible.sat_bind ((engineOn_resolveLive _).sat hr hinv) (fun _ d hd => ?_)
          fun error d hd => hfail error hd
        refine sat_liveGet_other hr (CellInv.stable hd hinv) fun d' live hlive he => ?_
        replace he := interference.trans hd he
        dsimp only [ExceptT.bindCont]
        split
        · exact hfail _ he
        · refine Fallible.sat_bind (ih hrefs.tail (CellInv.stable he hinv)
            (Framed.stable he hframe) fun hmem =>
              Held.stable he (hc (List.mem_cons_of_mem _ hmem))) (fun entries u hu => ?_)
            fun error u hu => sat_pure ResolvedAll.stable ⟨.error, hu.2.1, hu.2.2.1,
              fun hmem => hu.2.2.2 (htail hmem)⟩
          refine sat_pure ResolvedAll.stable ⟨.cons ⟨rfl, hlive.record⟩ rfl hu.1, hu.2.1,
            hu.2.2.1, fun e he her => ?_⟩
          rcases List.mem_cons.mp he with rfl | he
          · exact absurd her hr
          · exact hu.2.2.2 e he her

/-- The ownership check changes nothing. -/
lemma sat_verifyOwnership (hon : ∀ e ∈ entries, e.On L) (hinv : CellInv r c) :
    EngineSat F i m r (verifyOwnership (fakeBackend caps) entries).run
      (fun _ => Interference c) c := by
  have hstable : ∀ c : Cell, Stable interference (Interference c) := fun _ _ _ h hc =>
    interference.trans hc h
  induction entries generalizing c with
  | nil => exact sat_pure (hstable c) (interference.refl c)
  | cons e rest ih =>
      have he := (hon e (List.mem_cons_self ..)).old.resource
      have hread : EngineSat F i m r (readback .forward e.old.resource)
          (fun _ => Interference c) c := by
        by_cases hr : e.ref.resource = r
        · exact (sat_readback (he.trans hr) hinv fun d _ hd _ => sat_pure (hstable c) hd :
            EngineSat F i m r (readback .forward e.old.resource >>= pure) _ c)
        · exact (he ▸ engineOn_readback _ : EngineOn e.ref.resource _).sat hr hinv
      refine Fallible.sat_bind hread (fun current d hd => ?_) fun _ d hd => sat_pure (hstable c) hd
      refine sat_fire (CellInv.stable hd hinv) fun d' answer hd' _ => ?_
      replace hd' := interference.trans hd hd'
      match answer with
      | .error error => exact sat_pure (hstable c) hd'
      | .ok _ =>
      dsimp only [ExceptT.bindCont]
      split
      · exact sat_pure (hstable c) hd'
      · exact (ih (fun x hx => hon x (List.mem_cons_of_mem e hx))
          (CellInv.stable hd' hinv)).mono fun _ u hu => interference.trans hd' hu

/-! ## Preparing the entries -/

/-- An entry with its intent published. -/
def Prepped (r : ResourceId) (L : LeaseId) (c₀ : Cell) (plan : NormalizedConfig) (e : FakeEntry)
    (c : Cell) : Prop :=
  Preparing r L c₀ e ⟨e.intent plan, .unmutated⟩ c

lemma Prepped.stable : Stable interference (Prepped r L c₀ plan e) := Preparing.stable

/-- What an entry is while the intents are published: `todo` are the entries still to come. -/
def Intended (r : ResourceId) (L : LeaseId) (c₀ : Cell) (plan : NormalizedConfig)
    (entries todo : List FakeEntry) (c : Cell) : Prop :=
  CellInv r c ∧ Framed c₀ c ∧ ∀ e ∈ entries, e.ref.resource = r →
    (e ∈ todo → Owned r L c₀ e c) ∧ (e ∉ todo → Prepped r L c₀ plan e c)

lemma Intended.stable {todo : List FakeEntry} :
    Stable interference (Intended r L c₀ plan entries todo) := fun h hc =>
  ⟨CellInv.stable h hc.1, Framed.stable h hc.2.1, fun e he hr =>
    ⟨fun ht => Owned.stable h ((hc.2.2 e he hr).1 ht),
      fun ht => Prepped.stable h ((hc.2.2 e he hr).2 ht)⟩⟩

lemma Intended.preparing {todo : List FakeEntry} (h : Intended r L c₀ plan entries todo c) :
    AllPreparing r L c₀ entries c :=
  ⟨h.1, h.2.1, fun e he hr => by
    by_cases ht : e ∈ todo
    · exact ⟨_, ((h.2.2 e he hr).1 ht).preparing⟩
    · exact ⟨_, (h.2.2 e he hr).2 ht⟩⟩

/-- What publishing the intents leaves. -/
def PreparedAll (r : ResourceId) (L : LeaseId) (c₀ : Cell) (plan : NormalizedConfig)
    (entries : List FakeEntry) (answer : Except Error Unit) (c : Cell) : Prop :=
  match answer with
  | .ok _ => Intended r L c₀ plan entries [] c
  | .error _ => Rested r L c₀ entries c

lemma PreparedAll.stable {answer : Except Error Unit} :
    Stable interference (PreparedAll r L c₀ plan entries answer) := fun h hc => by
  cases answer with
  | ok _ => exact Intended.stable h hc
  | error error => exact Rested.stable h hc

/-- Another live record of an entry in preparation. -/
lemma Preparing.setLive {live live' : FakeLive} (h : Preparing r L c₀ e live c)
    (hfree : live'.state.blocked = false) (hb : live'.record.before = e.old.before)
    (hi : live'.record.identity = e.old.identity) (hr : RecordOK r L live'.record c) (hon : live'.state.On r L) :
    Preparing r L c₀ e live' (c.setLive L live') :=
  ⟨h.tracked.setLive hfree hb hi hr hon, h.applied, h.names.shift (c.shift_setLive live')⟩

lemma RecordOK.intent (h : RecordOK r L e.old c) : RecordOK r L (e.intent plan) c :=
  ⟨h.lease, h.resource, h.identity, h.before, h.before_le, h.base, h.evidence⟩

/-- One entry of `prepareAll`: its intent is in memory, and in the journal or not. -/
lemma Owned.prepare (h : Owned r L c₀ e c) :
    Prepped r L c₀ plan e (c.setLive L ⟨e.intent plan, .unmutated⟩) :=
  h.preparing.setLive rfl rfl rfl h.tracked.old.intent trivial

/-- A write over the same `before` keeps an entry in preparation. -/
lemma Preparing.written {live : FakeLive} {record : FakeRecord} {success : Prop}
    (h : Preparing r L c₀ e live c) (hw : Written r L record success c d)
    (hb : record.before = e.old.before) : Preparing r L c₀ e live d :=
  { applied := h.applied
    names := h.names.shift hw.shift
    tracked :=
      { h.tracked with
        inv := hw.inv
        frame := hw.framed h.tracked.frame
        live_eq := by rw [hw.live, h.tracked.live_eq]
        record := h.tracked.record.shift hw.shift
        old := h.tracked.old.shift hw.shift
        kept := by
          rcases hw.journal with hj | ⟨-, hj⟩
          · exact .inr (by rw [hj]; rfl)
          · unfold Kept GivenUp
            rw [hj, hw.frame.removals]
            exact h.tracked.kept
        same := by
          intro record' hrec
          rcases hw.journal with hj | ⟨-, hj⟩
          · obtain rfl := Option.some.inj (hj.symm.trans hrec)
            rw [hb]
          · exact h.tracked.same record' (hj.symm.trans hrec)
        target := h.tracked.target.shift hw.shift } }

/-- The other entries are as far as before. -/
lemma Intended.tail {todo : List FakeEntry} (h : Intended r L c₀ plan entries (e :: todo) c)
    (hne : e.ref.resource ≠ r) : Intended r L c₀ plan entries todo c :=
  ⟨h.1, h.2.1, fun x hx hr =>
    ⟨fun ht => (h.2.2 x hx hr).1 (List.mem_cons_of_mem e ht), fun ht => (h.2.2 x hx hr).2 fun hm =>
      (List.mem_cons.mp hm).elim (fun hxe => hne (hxe ▸ hr)) ht⟩⟩

/-- The entry of `r` reached its intent. -/
lemma Intended.reached {todo : List FakeEntry} (h : Distinct L entries) (he : e ∈ entries)
    (hr : e.ref.resource = r) (hmem : e ∉ todo) (hc : Prepped r L c₀ plan e c) :
    Intended r L c₀ plan entries todo c :=
  ⟨hc.tracked.inv, hc.tracked.frame, fun x hx hxr => by
    obtain rfl := h.unique hx he (hxr.trans hr.symm)
    exact ⟨fun ht => absurd ht hmem, fun _ => hc⟩⟩

/-- `prepareAll`: every entry gets its intent, or returns to its old record. -/
lemma sat_prepareAll {todo : List FakeEntry} (h : Distinct L entries)
    (hsub : ∀ x ∈ todo, x ∈ entries) (hnodup : todo.Nodup)
    (hc : Intended r L c₀ plan entries todo c) :
    EngineSat F i m r (prepareAll plan entries todo).run (PreparedAll r L c₀ plan entries) c := by
  induction todo generalizing c with
  | nil => exact sat_pure PreparedAll.stable hc
  | cons e rest ih =>
      have he := hsub e (List.mem_cons_self ..)
      have hon := h.on e he
      have hrest : ∀ x ∈ rest, x ∈ entries := fun x hx => hsub x (List.mem_cons_of_mem e hx)
      rw [List.nodup_cons] at hnodup
      have hfail : ∀ {d : Cell} (error : Error), AllPreparing r L c₀ entries d →
          EngineSat F i m r (do
            let cleanup ← value (persistOlds entries)
            throw (transactionError error cleanup) :
              EngineResult FakeSnapshotData FakeIdentity Unit).run
            (PreparedAll r L c₀ plan entries) d := fun error hd =>
        Fallible.sat_value (sat_persistOlds h hd) fun _ _ hu => sat_pure PreparedAll.stable hu
      unfold prepareAll
      by_cases hr : e.ref.resource = r
      · have ho := (hc.2.2 e he hr).1 (List.mem_cons_self ..)
        have href : e.ref = ⟨L, r⟩ := hr ▸ hon.ref_eq
        refine sat_liveGet href hc.1 ho.holding.live_eq fun d hd => ?_
        have hod := Owned.stable hd ho
        refine sat_liveSet href hod.holding.inv
          ⟨⟨hod.tracked.old.lease, hod.tracked.old.resource, hod.tracked.old.identity⟩, trivial⟩
          hod.holding.known (.inl fun old hold => ?_) fun u hu => ?_
        · obtain rfl := Option.some.inj (hod.holding.live_eq.symm.trans hold)
          rfl
        have hp : Prepped r L c₀ plan e _ := (Owned.stable hu hod).prepare
        have hrecord : RecordOK r L (e.intent plan) (u.setLive L ⟨e.intent plan, .unmutated⟩) :=
          hp.tracked.record
        refine sat_journalWrite hp.tracked.inv hrecord hp.tracked.known fun v answer _ hv => ?_
        have hpv : Prepped r L c₀ plan e v := hp.written hv rfl
        have hnext := Intended.reached h he hr hnodup.1 hpv
        cases answer with
        | ok _ => exact ih hrest hnodup.2 hnext
        | error error => exact hfail error hnext.preparing
      · rw [hon.ref_eq]
        refine sat_liveGet_other hr hc.1 fun d live hlive hd => ?_
        refine sat_value_other (engineOn_liveSet _) hr (CellInv.stable hd hc.1) fun _ u hu => ?_
        replace hu := interference.trans hd hu
        refine sat_value_other (engineOn_journalWrite hlive.record.resource) hr
          (CellInv.stable hu hc.1) fun answer v hv => ?_
        have hnext := (Intended.stable (interference.trans hu hv) hc).tail hr
        cases answer with
        | ok _ => exact ih hrest hnodup.2 hnext
        | error error => exact hfail error hnext.preparing

/-! ## Mutating the entries -/

abbrev FakeMutation := VerifiedMutation FakeSnapshotData

abbrev FakeResidue := MutationResidue FakeSnapshotData

lemma Preparing.failed {live : FakeLive} (h : Preparing r L c₀ e live c) :
    Failed r L c₀ e .unchanged c :=
  ⟨⟨live, h.tracked⟩, h.applied, h.names⟩

/-- The entries moved so far: that of `r` is `Moved`. -/
def AllMoved (r : ResourceId) (L : LeaseId) (c₀ : Cell) (plan : NormalizedConfig)
    (updated : List (FakeEntry × FakeMutation)) (c : Cell) : Prop :=
  ∀ x ∈ updated, x.1.ref.resource = r →
    x.1.old.applied = some x.1.applied ∧ Moved r L c₀ plan x.1 x.2 c

/-- The entries of a failed update: that of `r` is `Failed`. -/
def AllFailed (r : ResourceId) (L : LeaseId) (c₀ : Cell)
    (residues : List (FakeEntry × FakeResidue)) (c : Cell) : Prop :=
  ∀ x ∈ residues, x.1.ref.resource = r → Failed r L c₀ x.1 x.2 c

lemma AllMoved.stable {updated : List (FakeEntry × FakeMutation)} :
    Stable interference (AllMoved r L c₀ plan updated) := fun h hc x hx hr =>
  ⟨(hc x hx hr).1, Moved.stable h (hc x hx hr).2⟩

lemma AllFailed.stable {residues : List (FakeEntry × FakeResidue)} :
    Stable interference (AllFailed r L c₀ residues) := fun h hc x hx hr =>
  Failed.stable h (hc x hx hr)

/-- What rolling back the moved entries leaves. -/
structure RolledBack (r : ResourceId) (L : LeaseId) (c₀ c : Cell)
    (updated : List (FakeEntry × FakeMutation)) (residues : List (FakeEntry × FakeResidue))
    (d : Cell) : Prop where
  fst : residues.map Prod.fst = updated.map Prod.fst
  failed : AllFailed r L c₀ residues d
  inv : CellInv r d
  frame : Framed c₀ d
  others : r ∉ updated.map (·.1.ref.resource) → Interference c d

lemma RolledBack.stable {updated : List (FakeEntry × FakeMutation)}
    {residues : List (FakeEntry × FakeResidue)} :
    Stable interference (RolledBack r L c₀ c updated residues) := fun h hc =>
  ⟨hc.fst, AllFailed.stable h hc.failed, CellInv.stable h hc.inv, Framed.stable h hc.frame,
    fun hr => interference.trans (hc.others hr) h⟩

/-- A rollback over the old evidence of a moved entry. -/
lemma sat_rollbackMoved {mutation : FakeMutation} (happlied : e.old.applied = some e.applied)
    (h : Moved r L c₀ plan e mutation c) :
    EngineSat F i m r (rollbackProven (fakeBackend caps) L e.old.identity (some mutation.persist)
      e.applied) (Failed r L c₀ e) c := by
  have ht := h.tracked
  have hp : RollbackOK r L e.old.before.data.state ⟨some mutation.persist, e.applied⟩ c :=
    ⟨ht.target, fun p hp => by
      obtain rfl := Option.some.inj hp
      exact ⟨h.expresses.issued, h.expresses.names⟩, fun hn => absurd hn (by simp)⟩
  exact (sat_rollbackProven ht.old.identity ht.working ht.kept hp).mono fun residue d hd =>
    ⟨⟨_, ht.mutated hd.1⟩, happlied, hd.2.1⟩

lemma sat_rollbackUpdated {updated : List (FakeEntry × FakeMutation)}
    (h : Distinct L (updated.map Prod.fst)) (hinv : CellInv r c) (hframe : Framed c₀ c)
    (hc : AllMoved r L c₀ plan updated c) :
    EngineSat F i m r (rollbackUpdated (fakeBackend caps) updated)
      (RolledBack r L c₀ c updated) c := by
  induction updated generalizing c with
  | nil =>
      exact sat_pure RolledBack.stable
        ⟨rfl, fun x hx => absurd hx (by simp), hinv, hframe, fun _ => interference.refl c⟩
  | cons x rest ih =>
      obtain ⟨e, mutation⟩ := x
      have hon := h.on e (by simp)
      have hnodup := h.nodup
      simp only [List.map_cons, List.nodup_cons, List.map_map] at hnodup
      have hrest : Distinct L (rest.map Prod.fst) :=
        ⟨fun y hy => h.on y (List.mem_cons_of_mem e hy), by
          rw [List.map_map]
          exact hnodup.2⟩
      have hmoved : ∀ {d : Cell}, AllMoved r L c₀ plan ((e, mutation) :: rest) d →
          AllMoved r L c₀ plan rest d := fun hd y hy => hd y (List.mem_cons_of_mem _ hy)
      unfold rollbackUpdated
      rw [hon.lease]
      by_cases hr : e.ref.resource = r
      · obtain ⟨happlied, hm⟩ := hc (e, mutation) (List.mem_cons_self ..) hr
        have hnone : r ∉ rest.map (·.1.ref.resource) := hr ▸ hnodup.1
        refine sat_bind (sat_rollbackMoved happlied hm) fun residue d hd => ?_
        have ht := hd.1.choose_spec
        refine sat_bind (ih hrest ht.inv ht.frame fun y hy hyr =>
          absurd (List.mem_map.mpr ⟨y, hy, hyr⟩) hnone) fun residues u hu => ?_
        refine sat_pure RolledBack.stable ⟨by simp [hu.fst], fun y hy hyr => ?_, hu.inv, hu.frame,
          fun hn => absurd (by simp [hr]) hn⟩
        rcases List.mem_cons.mp hy with rfl | hy
        · exact Failed.stable (hu.others hnone) hd
        · exact hu.failed y hy hyr
      · refine sat_other (engineOn_rollbackProven _ hon.old.identity) hr hinv fun residue d hd => ?_
        refine sat_bind (ih hrest (CellInv.stable hd hinv) (Framed.stable hd hframe)
          (hmoved (AllMoved.stable hd hc))) fun residues u hu => ?_
        refine sat_pure RolledBack.stable ⟨by simp [hu.fst], fun y hy hyr => ?_, hu.inv, hu.frame,
          fun hn => interference.trans hd (hu.others fun hm => hn (List.mem_cons_of_mem _ hm))⟩
        rcases List.mem_cons.mp hy with rfl | hy
        · exact absurd hyr hr
        · exact hu.failed y hy hyr

lemma settleAllUpdated_performs :
    Performs (fun x : FakeEntry × FakeResidue => settleUpdated (fakeBackend caps) x.1 x.2)
      (settleAllUpdated (fakeBackend caps)) where
  nil := ⟨[], rfl⟩
  cons _ _ := ⟨fun a b => a ++ b, rfl⟩

lemma sat_settleAllUpdated {residues : List (FakeEntry × FakeResidue)}
    (h : Distinct L (residues.map Prod.fst)) (hinv : CellInv r c) (hframe : Framed c₀ c)
    (hc : AllFailed r L c₀ residues c) :
    EngineSat F i m r (settleAllUpdated (fakeBackend caps) residues)
      (fun _ => Rested r L c₀ (residues.map Prod.fst)) c := by
  have hmem : ∀ {x : FakeEntry × FakeResidue}, x ∈ residues → x.1 ∈ residues.map Prod.fst :=
    fun hx => List.mem_map_of_mem hx
  have hkeys : residues.map (fun x => x.1.ref.resource) =
      (residues.map Prod.fst).map (·.ref.resource) := by rw [List.map_map]; rfl
  refine (settleAllUpdated_performs.sat (fun x hx => engineOn_settleUpdated (h.on _ (hmem hx)))
    (hkeys ▸ h.nodup) (P := fun d => CellInv r d ∧ Framed c₀ d ∧ AllFailed r L c₀ residues d)
    (Q := fun d => ∃ e ∈ residues.map Prod.fst, e.ref.resource = r ∧ Held r L c₀ e.old.before d)
    (fun hst hd => ⟨CellInv.stable hst hd.1, Framed.stable hst hd.2.1,
      AllFailed.stable hst hd.2.2⟩)
    (fun hst ⟨e, he, hr, hh⟩ => ⟨e, he, hr, Held.stable hst hh⟩) (fun d hd => hd.1)
    (fun d ⟨_, _, _, hh⟩ => hh.inv) (fun x hx hr d hd => ?_) ⟨hinv, hframe, hc⟩).mono
    fun _ d hd => rested_of_loop h (P := fun d => CellInv r d ∧ Framed c₀ d ∧
      AllFailed r L c₀ residues d) (fun _ hd => ⟨hd.1, hd.2.1⟩) (hkeys ▸ hd)
  exact (sat_settleUpdated (h.on _ (hmem hx)) hr (hd.2.2 x hx hr)).mono fun _ u hu =>
    ⟨x.1, hmem hx, hr, hu⟩

/-- The loop of mutations: what is moved so far, and what still carries its intent. -/
structure Moving (r : ResourceId) (L : LeaseId) (c₀ : Cell) (plan : NormalizedConfig)
    (updated : List (FakeEntry × FakeMutation)) (todo : List FakeEntry) (c : Cell) : Prop where
  inv : CellInv r c
  frame : Framed c₀ c
  moved : AllMoved r L c₀ plan updated c
  waiting : ∀ e ∈ todo, e.ref.resource = r → Prepped r L c₀ plan e c

lemma Moving.stable {updated : List (FakeEntry × FakeMutation)} {todo : List FakeEntry} :
    Stable interference (Moving r L c₀ plan updated todo) := fun h hc =>
  ⟨CellInv.stable h hc.inv, Framed.stable h hc.frame, AllMoved.stable h hc.moved,
    fun e he hr => Prepped.stable h (hc.waiting e he hr)⟩

/-- What the loop of mutations leaves of the entries. -/
def MovedAll (r : ResourceId) (L : LeaseId) (c₀ : Cell) (plan : NormalizedConfig)
    (entries : List FakeEntry) (answer : Except Error (List (FakeEntry × FakeMutation)))
    (c : Cell) : Prop :=
  match answer with
  | .ok updated => updated.map Prod.fst = entries ∧ Moving r L c₀ plan updated [] c
  | .error _ => Rested r L c₀ entries c

lemma MovedAll.stable {answer : Except Error (List (FakeEntry × FakeMutation))} :
    Stable interference (MovedAll r L c₀ plan entries answer) := fun h hc => by
  cases answer with
  | ok updated => exact ⟨hc.1, Moving.stable h hc.2⟩
  | error error => exact Rested.stable h hc

/-- The way out of the loop: what was moved is rolled back and every entry is settled. -/
lemma sat_withdrawUpdate {updated : List (FakeEntry × FakeMutation)} {rest : List FakeEntry}
    {failure : MutationFailure FakeSnapshotData} (h : Distinct L entries)
    (heq : entries = updated.map Prod.fst ++ e :: rest)
    (hc : Moving r L c₀ plan updated rest c)
    (hfailed : e.ref.resource = r → Failed r L c₀ e failure.residue c) :
    EngineSat F i m r (do
        let residues ← value (rollbackUpdated (fakeBackend caps) updated)
        let _ ← value (fire .afterUpdateVerify)
        let cleanup ← value (settleAllUpdated (fakeBackend caps)
          (residues ++ (e, failure.residue) :: rest.map (·, .unchanged)))
        throw (transactionError failure.error cleanup) :
          EngineResult FakeSnapshotData FakeIdentity (List (FakeEntry × FakeMutation))).run
      (MovedAll r L c₀ plan entries) c := by
  have hupdated : Distinct L (updated.map Prod.fst) :=
    ⟨fun x hx => h.on x (heq ▸ List.mem_append_left _ hx), by
      have := h.nodup
      rw [heq, List.map_append] at this
      exact this.of_append_left⟩
  refine Fallible.sat_value (sat_rollbackUpdated hupdated hc.inv hc.frame hc.moved)
    fun residues d hd => ?_
  refine sat_fire hd.inv fun u answer hu _ => ?_
  have hall : entries = (residues ++ (e, failure.residue) :: rest.map (·, .unchanged)).map
      Prod.fst := by
    simp [heq, hd.fst, Function.comp_def]
  have hnone : ∀ x ∈ e :: rest, x.ref.resource = r → r ∉ updated.map (·.1.ref.resource) := by
    intro x hx hxr hm
    have := h.nodup
    rw [heq, List.map_append, List.nodup_append] at this
    exact this.2.2 r (by rwa [List.map_map]) r (hxr ▸ List.mem_map_of_mem hx) rfl
  have hfail : AllFailed r L c₀ (residues ++ (e, failure.residue) :: rest.map (·, .unchanged)) u := by
    intro x hx hxr
    rcases List.mem_append.mp hx with hx | hx
    · exact Failed.stable hu (hd.failed x hx hxr)
    rcases List.mem_cons.mp hx with rfl | hx
    · exact Failed.stable hu
        (Failed.stable (hd.others (hnone _ (List.mem_cons_self ..) hxr)) (hfailed hxr))
    · obtain ⟨y, hy, rfl⟩ := List.mem_map.mp hx
      have hp := Prepped.stable (hd.others (hnone y (List.mem_cons_of_mem e hy) hxr))
        (hc.waiting y hy hxr)
      exact Failed.stable hu hp.failed
  refine Fallible.sat_value (sat_settleAllUpdated (hall ▸ h) (CellInv.stable hu hd.inv)
    (Framed.stable hu hd.frame) hfail) fun _ v hv => sat_pure MovedAll.stable ?_
  rw [← hall] at hv
  exact hv

lemma sat_mutateUpdated {updated : List (FakeEntry × FakeMutation)} {todo : List FakeEntry}
    (h : Distinct L entries) (heq : entries = updated.map Prod.fst ++ todo)
    (hc : Moving r L c₀ plan updated todo c) :
    EngineSat F i m r (mutateUpdated (fakeBackend caps) plan updated todo).run
      (MovedAll r L c₀ plan entries) c := by
  induction todo generalizing updated c with
  | nil => exact sat_pure MovedAll.stable ⟨by rw [heq, List.append_nil], hc⟩
  | cons e rest ih =>
      have he : e ∈ entries := by simp [heq]
      have hon := h.on e he
      have hres := hon.old.identity
      have hnext : ∀ mutation : FakeMutation,
          entries = (updated ++ [(e, mutation)]).map Prod.fst ++ rest := fun _ => by simp [heq]
      have hkeys := h.nodup
      rw [heq, List.map_append, List.map_cons, List.nodup_append] at hkeys
      unfold mutateUpdated
      rw [hon.ref_eq]
      by_cases hr : e.ref.resource = r
      · have hp := hc.waiting e (List.mem_cons_self ..) hr
        -- No other entry is of this resource.
        have hothers : ∀ {d : Cell}, CellInv r d → Framed c₀ d → Moving r L c₀ plan updated rest d :=
          fun hinv hframe => ⟨hinv, hframe, fun x hx hxr => absurd rfl (hkeys.2.2 r
              (List.mem_map.mpr ⟨x.1, List.mem_map_of_mem hx, hxr⟩) r (by simp [hr])),
            fun x hx hxr => absurd (List.mem_map.mpr ⟨x, hx, hxr.trans hr.symm⟩)
              (List.nodup_cons.mp hkeys.2.1).1⟩
        rw [hr]
        refine sat_liveGet rfl hc.inv hp.tracked.live_eq fun d hd => ?_
        have hpd := Prepped.stable hd hp
        have htd := hpd.tracked
        refine sat_liveSet rfl htd.inv ⟨htd.record.on, trivial⟩ htd.known
          (.inl fun old hold => ?_) fun u hu => ?_
        · obtain rfl := Option.some.inj (htd.live_eq.symm.trans hold)
          rfl
        have hpu : Preparing r L c₀ e ⟨e.intent plan, .prepared⟩
            (u.setLive L ⟨e.intent plan, .prepared⟩) :=
          (Prepped.stable hu hpd).setLive rfl rfl rfl (RecordOK.stable hu htd.record) trivial
        have ht := hpu.tracked
        refine Fallible.sat_value (sat_mutateAndVerify (hres.trans hr) rfl ht.working ht.kept
          ht.target hpu.names) fun answer v hv => ?_
        have htv := ht.mutated hv.1
        cases answer with
        | ok mutation =>
            refine ih (hnext mutation) ⟨htv.inv, htv.frame, fun x hx hxr => ?_,
              (hothers htv.inv htv.frame).waiting⟩
            rcases List.mem_append.mp hx with hx | hx
            · exact (hothers htv.inv htv.frame).moved x hx hxr
            · obtain rfl := List.mem_singleton.mp hx
              exact ⟨hpu.applied, htv, hv.2⟩
        | error failure =>
            exact sat_withdrawUpdate h heq (hothers htv.inv htv.frame) fun _ =>
              ⟨⟨_, htv⟩, hpu.applied, hv.2⟩
      · refine sat_liveGet_other hr hc.inv fun d live _ hd => ?_
        refine sat_value_other (engineOn_liveSet _) hr (CellInv.stable hd hc.inv) fun _ u hu => ?_
        replace hu := interference.trans hd hu
        refine sat_value_other (engineOn_mutateAndVerify _ hres) hr (CellInv.stable hu hc.inv)
          fun answer v hv => ?_
        have hv' := Moving.stable (interference.trans hu hv) hc
        have hrest : Moving r L c₀ plan updated rest v :=
          ⟨hv'.inv, hv'.frame, hv'.moved, fun x hx => hv'.waiting x (List.mem_cons_of_mem e hx)⟩
        cases answer with
        | ok mutation =>
            refine ih (hnext mutation) ⟨hrest.inv, hrest.frame, fun x hx hxr => ?_, hrest.waiting⟩
            rcases List.mem_append.mp hx with hx | hx
            · exact hrest.moved x hx hxr
            · obtain rfl := List.mem_singleton.mp hx
              exact absurd hxr hr
        | error failure => exact sat_withdrawUpdate h heq hrest fun hxr => absurd hxr hr

/-! ## Publishing the update -/

/-- The live record of a moved entry carries its verified mutation. -/
lemma Moved.liveOK {mutation : FakeMutation} (h : Moved r L c₀ plan e mutation c) :
    LiveOK r L ⟨e.intent plan, .verified mutation⟩ c where
  record := h.tracked.record
  state := h.expresses
  logged := h.tracked.kept.logged
  same _ := h.tracked.same
  agree _ hs := absurd hs (by simp [LiveState.isSettled])

lemma commitUpdated_performs :
    Performs (fun x : FakeEntry × FakeMutation =>
      (commitVerified (fakeBackend caps) x.1.ref x.2).run) (commitUpdated (fakeBackend caps)) where
  nil := ⟨none, rfl⟩
  cons x rest := by
    refine ⟨fun a b => Except.casesOn (motive := fun _ => Option Error) a some fun _ => b, ?_⟩
    rw [commitUpdated]
    congr 1
    funext a
    cases a with
    | ok _ => exact (bind_pure _).symm
    | error error => rfl

lemma sat_commitUpdated {updated : List (FakeEntry × FakeMutation)}
    (h : Distinct L (updated.map Prod.fst)) (hc : Moving r L c₀ plan updated [] c) :
    EngineSat F i m r (commitUpdated (fakeBackend caps) updated)
      (fun _ => Rested r L c₀ (updated.map Prod.fst)) c := by
  have hmem : ∀ {x : FakeEntry × FakeMutation}, x ∈ updated → x.1 ∈ updated.map Prod.fst :=
    fun hx => List.mem_map_of_mem hx
  have hkeys : updated.map (fun x => x.1.ref.resource) =
      (updated.map Prod.fst).map (·.ref.resource) := by rw [List.map_map]; rfl
  refine (commitUpdated_performs.sat (fun x hx => ?_) (hkeys ▸ h.nodup)
    (P := Moving r L c₀ plan updated [])
    (Q := fun d => ∃ e ∈ updated.map Prod.fst, e.ref.resource = r ∧ Held r L c₀ e.old.before d)
    Moving.stable (fun hst ⟨e, he, hr, hh⟩ => ⟨e, he, hr, Held.stable hst hh⟩)
    (fun d hd => hd.inv) (fun d ⟨_, _, _, hh⟩ => hh.inv) (fun x hx hr d hd => ?_) hc).mono
    fun _ d hd => rested_of_loop h (P := Moving r L c₀ plan updated [])
      (fun _ hd => ⟨hd.inv, hd.frame⟩) (hkeys ▸ hd)
  · exact (h.on _ (hmem hx)).ref_eq ▸ engineOn_commitVerified _
  · obtain ⟨-, hm⟩ := hd.moved x hx hr
    exact (sat_commitVerified (hr ▸ (h.on _ (hmem hx)).ref_eq) hm.tracked.inv hm.tracked.frame
      hm.tracked.live_eq hm.liveOK).mono fun _ u hu => ⟨x.1, hmem hx, hr, hu.held⟩

/-! ## The transaction -/

/-- What `transactUpdate` leaves of the live record of `r`. -/
def Updated (r : ResourceId) (L : LeaseId) (c₀ : Cell) (before : FakeSnapshot)
    (refs : List LiveRef) (c : Cell) : Prop :=
  CellInv r c ∧ Framed c₀ c ∧ (r ∈ refs.map (·.resource) → Held r L c₀ before c)

lemma Updated.stable {before : FakeSnapshot} {refs : List LiveRef} :
    Stable interference (Updated r L c₀ before refs) := fun h hc =>
  ⟨CellInv.stable h hc.1, Framed.stable h hc.2.1, fun hr => Held.stable h (hc.2.2 hr)⟩

lemma mem_refs {refs : List LiveRef} (heq : entries.map (·.ref) = refs) :
    r ∈ refs.map (·.resource) ↔ ∃ e ∈ entries, e.ref.resource = r := by
  subst heq
  simp

lemma Rested.updated {before : FakeSnapshot} {refs : List LiveRef}
    (h : Rested r L c₀ entries c) (heq : entries.map (·.ref) = refs)
    (hb : ∀ e ∈ entries, e.ref.resource = r → e.old.before = before) :
    Updated r L c₀ before refs c :=
  ⟨h.1, h.2.1, fun hr => by
    obtain ⟨e, he, her⟩ := (mem_refs heq).mp hr
    exact hb e he her ▸ h.2.2 e he her⟩

lemma sat_transactUpdate {refs : List LiveRef} {before : FakeSnapshot} (hrefs : Refs L refs)
    (hintact : Intact L c₀) (hinv : CellInv r c) (hframe : Framed c₀ c)
    (hfire : ¬ F (.engine (.fire .afterUpdatePrepared)))
    (hc : r ∈ refs.map (·.resource) → Held r L c₀ before c) :
    EngineSat F i m r (transactUpdate (fakeBackend caps) refs plan).run
      (fun _ => Updated r L c₀ before refs) c := by
  refine sat_fire hinv fun d answer hd _ => ?_
  have hud : Updated r L c₀ before refs d :=
    Updated.stable hd ⟨hinv, hframe, hc⟩
  match answer with
  | .error error => exact sat_pure Updated.stable hud
  | .ok _ =>
  refine Fallible.sat_bind (sat_resolveAll hrefs hintact hud.1 hud.2.1 hud.2.2)
    (fun entries d hd => ?_) fun error d hd => sat_pure Updated.stable ⟨hd.2.1, hd.2.2.1, hd.2.2.2⟩
  obtain ⟨hlisted, hinv, hframe, howned⟩ := hd
  obtain ⟨hon, heq⟩ := hlisted entries rfl
  have hdistinct := hrefs.distinct hon heq
  have hb : ∀ e ∈ entries, e.ref.resource = r → e.old.before = before := fun e he hr =>
    (howned e he hr).2
  have hrested : ∀ {u : Cell}, Interference d u → Updated r L c₀ before refs u := fun hu =>
    Updated.stable hu ⟨hinv, hframe, fun hr => by
      obtain ⟨e, he, her⟩ := (mem_refs heq).mp hr
      exact ⟨_, (howned e he her).1.holding, hb e he her⟩⟩
  refine Fallible.sat_bind (sat_verifyOwnership hon hinv) (fun _ u hu => ?_)
    fun error u hu => sat_pure Updated.stable (hrested hu)
  split
  · refine sat_fire (hrested hu).1 fun v answer hv _ => ?_
    exact sat_pure Updated.stable (hrested (interference.trans hu hv))
  · have hintended : Intended r L c₀ plan entries entries u :=
      ⟨(hrested hu).1, (hrested hu).2.1, fun e he her =>
        ⟨fun _ => Owned.stable hu (howned e he her).1, fun hn => absurd he hn⟩⟩
    have hpublish : ∀ {v : Cell} (updated : List (FakeEntry × FakeMutation)),
        updated.map Prod.fst = entries → Moving r L c₀ plan updated [] v →
        EngineSat F i m r (publishUpdate (fakeBackend caps) updated).run
          (fun _ => Updated r L c₀ before refs) v := by
      intro v updated hfst hv
      subst hfst
      refine Fallible.sat_value (sat_commitUpdated hdistinct hv) fun answer w hw => ?_
      have hwu := hw.updated heq hb
      match answer with
      | some error => exact sat_pure Updated.stable hwu
      | none =>
          exact sat_fire hw.1 fun x answer hx _ => sat_pure Updated.stable (Updated.stable hx hwu)
    have hmutate : EngineSat F i m r (mutateAll (fakeBackend caps) plan entries).run
        (MovedAll r L c₀ plan entries) u := by
      refine Fallible.sat_bind (sat_prepareAll hdistinct (fun _ h => h)
        (List.Nodup.of_map _ hdistinct.nodup) hintended) (fun _ v hv => ?_)
        fun error v hv => sat_pure MovedAll.stable hv
      refine sat_fire hv.1 fun w answer hw ha => ?_
      match answer with
      | .error error => exact absurd (ha.resolve_left (by simp)) hfire
      | .ok _ =>
      have hvw := Intended.stable hw hv
      exact sat_mutateUpdated hdistinct rfl ⟨hvw.1, hvw.2.1, fun x hx => absurd hx (by simp),
        fun e he hr => (hvw.2.2 e he hr).2 (by simp)⟩
    exact Fallible.sat_bind hmutate (fun updated v hv => hpublish updated hv.1 hv.2)
      fun error v hv => sat_pure Updated.stable (hv.updated heq hb)

end Osdns
