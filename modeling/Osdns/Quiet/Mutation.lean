import Osdns.Quiet.Calls

/-!
# Mutation that nobody interferes with

`mutateAndVerify` over the current snapshot either leaves the plan in effect, or, when the calls
that compensate succeed, the content it started from.
-/

namespace Osdns

open Interaction
open Interaction.Fallible (ask value attempt)
open Engine

variable {r : ResourceId} {L : LeaseId} {c d e : Cell}
variable {F : Faults} {i : SessionId} {m : ManagerId} {caps : Capabilities} {α β : Type}
variable {cause : Cause} {identity : FakeResourceIdentity} {p q target : FakeSnapshot}
variable {plan : NormalizedConfig} {content : FakeState}

/-- The calls that compensate and the checkpoints do not fail. -/
structure Gentle (F : Faults) : Prop where
  fire : ∀ point, ¬ F (.engine (.fire point))
  status : ∀ identity, ¬ F (.engine (.resourceStatus .compensation identity))
  readback : ∀ resource, ¬ F (.engine (.readback .compensation resource))
  restore : ∀ cause resource expected target,
    ¬ F (.engine (.restoreGuarded cause resource expected target))

/-- The native state has the given content, in the snapshot `q`; nothing else that a program
keeps has changed since `c`, and the resource is still the same. -/
structure Shows (r : ResourceId) (content : FakeState) (q : FakeSnapshot) (c d : Cell) : Prop where
  live : d.live = c.live
  journal : d.journal = c.journal
  snapshot : d.snapshot r = some q
  content : q.data.state = content
  status : ∀ identity, c.resourceStatus identity = .ok .same →
    d.resourceStatus identity = .ok .same

lemma Shows.of_alike (h : Alike c d) (hp : c.snapshot r = some p) :
    Shows r p.data.state p c d :=
  ⟨h.live, h.journal, h.snapshot.trans hp, rfl, fun identity hs => (h.status identity).trans hs⟩

lemma Shows.after (h : Alike c d) (hs : Shows r content q d e) : Shows r content q c e :=
  ⟨hs.live.trans h.live, hs.journal.trans h.journal, hs.snapshot, hs.content, fun identity hi =>
    hs.status identity ((h.status identity).trans hi)⟩

lemma Shows.alike (hs : Shows r content q c d) (h : Alike d e) : Shows r content q c e :=
  ⟨h.live.trans hs.live, h.journal.trans hs.journal, h.snapshot.trans hs.snapshot, hs.content,
    fun identity hi => (h.status identity).trans (hs.status identity hi)⟩

lemma Shows.trans {content' : FakeState} {q' : FakeSnapshot} (h₁ : Shows r content q c d)
    (h₂ : Shows r content' q' d e) : Shows r content' q' c e :=
  ⟨h₂.live.trans h₁.live, h₂.journal.trans h₁.journal, h₂.snapshot, h₂.content,
    fun identity hi => h₂.status identity (h₁.status identity hi)⟩

lemma Shows.mutate {old new : FakeState} {now : Instant} :
    Shows r new (c.produced r new) c (c.mutate cause old new now) :=
  ⟨rfl, rfl, Cell.snapshot_mutate, rfl, fun _ hs => Cell.status_mutate hs⟩

/-- Nothing is claimed of a program that may do anything. -/
lemma quiet_any {p : Engine FakeSnapshotData FakeIdentity α} :
    EngineQuiet F i m r p (fun _ _ => True) c := by
  induction p generalizing c with
  | done a => exact fun _ _ => trivial
  | call o k ih => exact fun _ _ _ _ _ => ⟨trivial, ih _⟩

/-! ## Guarded mutations -/

/-- A guarded mutation over the current snapshot is made or not. -/
lemma quiet_applyGuarded {Q : α → Cell → Prop}
    {k : MutationAttempt FakeSnapshotData → Engine FakeSnapshotData FakeIdentity α}
    (hp : c.snapshot r = some p)
    (hnone : ∀ d answer, Alike c d → ((∃ error, answer = .rejected error) ∨
      ∃ error, answer = .indeterminate error none) → EngineQuiet F i m r (k answer) Q d)
    (hmade : ∀ d q answer, Shows r (mergeState p.data.state plan) q c d →
      (answer = .performed (some q) ∨ ∃ error, answer = .indeterminate error (some q)) →
        EngineQuiet F i m r (k answer) Q d) :
    EngineQuiet F i m r (applyGuarded cause r p plan >>= k) Q c := by
  intro d hd answer e he
  have hof := (Cell.snapshot_eq_some hp).1
  rcases Cell.engineHandler_applyGuarded he hof with
    ⟨rfl, hanswer, -⟩ | ⟨now, new, rfl, -, rfl, hanswer⟩
  · exact ⟨trivial, hnone e answer hd hanswer⟩
  · exact ⟨trivial, hmade _ _ answer (Shows.mutate.after hd) (hanswer.imp id And.left)⟩

/-- A guarded restoration over the current snapshot that does not fail. -/
lemma quiet_restoreGuarded {Q : α → Cell → Prop}
    {k : MutationAttempt FakeSnapshotData → Engine FakeSnapshotData FakeIdentity α}
    (hF : Gentle F) (hp : c.snapshot r = some p) (ht : target.Of r)
    (hk : ∀ d q, Shows r target.data.state q c d →
      EngineQuiet F i m r (k (.performed (some q))) Q d) :
    EngineQuiet F i m r (restoreGuarded cause r p target >>= k) Q c := by
  intro d hd answer e he
  have hof := (Cell.snapshot_eq_some hp).1
  rcases Cell.engineHandler_restoreGuarded he hof ht with
    ⟨-, -, hfail | hne⟩ | ⟨now, -, rfl, rfl⟩
  · exact absurd hfail (hF.restore _ _ _ _)
  · exact absurd ((Alike.snapshot hd).trans hp) hne
  · exact ⟨trivial, hk _ _ (Shows.mutate.after hd)⟩

/-- `apply_bound` over the current snapshot: a mutation is only made of the leased resource. -/
lemma quiet_applyBound {Q : α → Cell → Prop}
    {k : MutationAttempt FakeSnapshotData → Engine FakeSnapshotData FakeIdentity α}
    (hr : identity.resource = r) (hp : c.snapshot r = some p)
    (hrejected : ∀ d error, Alike c d → EngineQuiet F i m r (k (.rejected error)) Q d)
    (hnone : ∀ d error, Alike c d → c.resourceStatus identity = .ok .same →
      EngineQuiet F i m r (k (.indeterminate error none)) Q d)
    (hmade : ∀ d q answer, Shows r (mergeState p.data.state plan) q c d →
      c.resourceStatus identity = .ok .same →
      (answer = .performed (some q) ∨ ∃ error, answer = .indeterminate error (some q)) →
        EngineQuiet F i m r (k answer) Q d) :
    EngineQuiet F i m r (applyBound (fakeBackend caps) cause identity p plan >>= k) Q c := by
  refine quiet_status hr fun d answer hd hanswer => ?_
  match answer with
  | .error error => exact hrejected d _ hd
  | .ok .same =>
      have hsame : c.resourceStatus identity = .ok .same :=
        (hanswer.resolve_right fun h => by simp at h).symm
      subst hr
      refine quiet_applyGuarded (hd.snapshot.trans hp) (fun e answer he hanswer => ?_)
        fun e q answer hq hanswer => hmade e q answer (hq.after hd) hsame hanswer
      rcases hanswer with ⟨error, rfl⟩ | ⟨error, rfl⟩
      · exact hrejected e error (hd.trans he)
      · exact hnone e error (hd.trans he) hsame
  | .ok .gone => exact hrejected d _ hd
  | .ok .replaced => exact hrejected d _ hd
  | .ok .ambiguous => exact hrejected d _ hd

/-! ## Compensation -/

lemma quiet_compensating_status {Q : α → Cell → Prop}
    {k : Except Error ResourceStatus → Engine FakeSnapshotData FakeIdentity α} (hF : Gentle F)
    (hr : identity.resource = r) (hs : c.resourceStatus identity = .ok .same)
    (hk : ∀ d, Alike c d → EngineQuiet F i m r (k (.ok .same)) Q d) :
    EngineQuiet F i m r (resourceStatus .compensation identity >>= k) Q c := by
  refine quiet_status hr fun d answer hd hanswer => ?_
  obtain rfl := (hanswer.resolve_right fun h => hF.status _ h.2).trans hs
  exact hk d hd

lemma quiet_compensating_readback {Q : α → Cell → Prop} {resource : ResourceId}
    {k : Except Error FakeSnapshot → Engine FakeSnapshotData FakeIdentity α} (hF : Gentle F)
    (hr : resource = r) (hp : c.snapshot r = some p)
    (hk : ∀ d, Alike c d → EngineQuiet F i m r (k (.ok p)) Q d) :
    EngineQuiet F i m r (readback .compensation resource >>= k) Q c := by
  refine quiet_readback hr fun d answer hd hanswer => ?_
  rcases hanswer with ⟨p', hp', rfl⟩ | ⟨-, hnone | hfail⟩
  · obtain rfl := Option.some.inj (hp'.symm.trans hp)
    exact hk d hd
  · exact absurd (hnone.symm.trans hp) (by simp)
  · exact absurd hfail (hF.readback _)

/-- `compensate` when the rollback names the current snapshot. -/
lemma quiet_compensate {pending : PendingRollback FakeSnapshotData} (hF : Gentle F)
    (hr : identity.resource = r) (hs : c.resourceStatus identity = .ok .same)
    (hp : c.snapshot r = some p) (ht : pending.target.Of r)
    (hnames : pending.evidence = some p ∨ pending.evidence = none ∧ pending.target = p) :
    EngineQuiet F i m r (compensate (fakeBackend caps) L identity pending none)
      (fun answer d => ∃ q, answer.1 = .ok (some q) ∧
        Shows r pending.target.data.state q c d) c := by
  have hstable : ∀ answer : Except Error (Option FakeSnapshot) × PendingRollback FakeSnapshotData,
      Stable bookkeeping fun d => ∃ q, answer.1 = .ok (some q) ∧
        Shows r pending.target.data.state q c d :=
    fun _ _ _ h hq => hq.imp fun _ hq => ⟨hq.1, hq.2.alike h⟩
  have hof := (Cell.snapshot_eq_some hp).1
  have howns : (fakeBackend caps).provesCurrent p p = true :=
    (fakeBackend_provesCurrent hof hof).mpr rfl
  refine quiet_compensating_status hF hr hs fun d hd => ?_
  simp only [ne_eq, not_true_eq_false, ↓reduceIte]
  refine quiet_compensating_readback hF hr (hd.snapshot.trans hp) fun d' hd' => ?_
  replace hd' := hd.trans hd'
  by_cases hsame : p.data.state = pending.target.data.state
  · have hequal : (fakeBackend caps).equivalent p pending.target = true :=
      (fakeBackend_equivalent hof ht).mpr hsame
    have hshows := hsame ▸ Shows.of_alike hd' hp
    simp only [hequal, ↓reduceIte]
    rcases hnames with hnames | ⟨hnames, htarget⟩
    · simp only [hnames, Option.filter_some, fakeBackend_ownsCurrent, howns, ↓reduceIte]
      exact quiet_pure (hstable _) ⟨p, rfl, hshows⟩
    · simp only [hnames, Option.filter_none, fakeBackend_ownsCurrent, htarget, howns, ↓reduceIte]
      exact quiet_pure (htarget ▸ hstable _) ⟨p, rfl, htarget ▸ hshows⟩
  · have hdiffers : (fakeBackend caps).equivalent p pending.target = false :=
      Bool.eq_false_iff.mpr fun h => hsame ((fakeBackend_equivalent hof ht).mp h)
    have hevidence : pending.evidence = some p :=
      hnames.resolve_right fun h => hsame (by rw [h.2])
    simp only [hdiffers, Bool.false_eq_true, ↓reduceIte, hevidence, fakeBackend_ownsCurrent, howns,
      Bool.true_eq_false]
    change EngineQuiet F i m r (Program.bind (restoreBound _ _ _ _ _) _) _ d'
    unfold restoreBound
    change EngineQuiet F i m r (Program.bind (Program.bind (resourceStatus _ _) _) _) _ d'
    rw [Program.bind_assoc]
    refine quiet_compensating_status hF hr ((hd'.status _).trans hs) fun u hu => ?_
    subst hr
    replace hu := hd'.trans hu
    refine quiet_restoreGuarded hF (hu.snapshot.trans hp) ht fun v q hv => ?_
    replace hv := hv.after hu
    have hofq := (Cell.snapshot_eq_some hv.snapshot).1
    have hequal : (fakeBackend caps).equivalent q pending.target = true :=
      (fakeBackend_equivalent hofq ht).mpr hv.content
    have hproves : (fakeBackend caps).provesCurrent q q = true :=
      (fakeBackend_provesCurrent hofq hofq).mpr rfl
    refine quiet_bind (M := fun answer w => answer = .ok (some q) ∧
      Shows identity.resource pending.target.data.state q c w) ?_ fun answer w hw => ?_
    · refine quiet_compensating_readback hF rfl hv.snapshot fun w hw => ?_
      refine quiet_compensating_status hF rfl ((hw.status _).trans (hv.status _ hs)) fun x hx => ?_
      simp only [ne_eq, hequal, Bool.true_eq_false, ↓reduceIte, Option.filter_some,
        fakeBackend_ownsCurrent, hproves]
      exact quiet_pure (fun h hq => ⟨hq.1, hq.2.alike h⟩) ⟨rfl, hv.alike (hw.trans hx)⟩
    · obtain ⟨rfl, hw⟩ := hw
      exact quiet_pure (hstable _) ⟨q, rfl, hw⟩

/-- `rollback_proven` when the rollback names the current snapshot. -/
lemma quiet_rollbackProven {produced : Option FakeSnapshot} (hF : Gentle F)
    (hr : identity.resource = r) (hs : c.resourceStatus identity = .ok .same)
    (hp : c.snapshot r = some p) (ht : target.Of r)
    (hnames : produced = some p ∨ produced = none ∧ target = p) :
    EngineQuiet F i m r (rollbackProven (fakeBackend caps) L identity produced target)
      (fun residue d => ∃ q, residue = .restored (some q) ∧ Shows r target.data.state q c d) c := by
  unfold rollbackProven
  refine quiet_bind (quiet_compensate hF hr hs hp ht hnames) fun answer d hd => ?_
  obtain ⟨answer, pending⟩ := answer
  obtain ⟨q, rfl, hq⟩ := hd
  exact quiet_pure (fun h hq => hq.imp fun _ hq => ⟨hq.1, hq.2.alike h⟩) ⟨q, rfl, hq⟩

/-! ## Mutation with verification -/

/-- What `mutate_and_verify` over the snapshot `p` leaves: the plan in effect with the evidence for
it, or, when the compensating calls succeed, the content it started from. -/
structure Verified (F : Faults) (r : ResourceId) (identity : FakeResourceIdentity)
    (p : FakeSnapshot) (plan : NormalizedConfig) (c : Cell)
    (answer : Except (MutationFailure FakeSnapshotData) (VerifiedMutation FakeSnapshotData))
    (d : Cell) : Prop where
  ok : ∀ mutation, answer = .ok mutation →
    Shows r (mergeState p.data.state plan) mutation.persist c d ∧
      d.resourceStatus identity = .ok .same
  error : Gentle F → ∀ failure, answer = .error failure →
    ∃ q, Shows r p.data.state q c d ∧
      (failure.residue = .unchanged ∧ q = p ∨ failure.residue = .restored (some q))

lemma Verified.stable
    {answer : Except (MutationFailure FakeSnapshotData) (VerifiedMutation FakeSnapshotData)} :
    Stable bookkeeping (Verified F r identity p plan c answer) := fun h hv =>
  ⟨fun mutation ha => ⟨(hv.ok mutation ha).1.alike h,
      (Alike.status h identity).trans (hv.ok mutation ha).2⟩,
    fun hF failure ha => (hv.error hF failure ha).imp fun _ hq => ⟨hq.1.alike h, hq.2⟩⟩

/-- The way out of `mutate_and_verify`, over evidence that is current. -/
lemma quiet_failMutation {produced : Option FakeSnapshot} {error : Error}
    (hr : identity.resource = r) (hp : p.Of r) (hq : Shows r content q c d)
    (hs : c.resourceStatus identity = .ok .same)
    (hnames : produced = some q ∨ produced = none ∧ p = q) :
    EngineQuiet F i m r (failMutation (fakeBackend caps) L identity p produced error)
      (Verified F r identity p plan c) d := by
  have hfailed : ∀ {residue : MutationResidue FakeSnapshotData} {e : Cell},
      (Gentle F → ∃ q, Shows r p.data.state q c e ∧ residue = .restored (some q)) →
      EngineQuiet F i m r (pure (.error ⟨error, residue⟩)) (Verified F r identity p plan c) e := by
    intro residue e he
    refine quiet_pure Verified.stable ⟨fun _ h => absurd h (by simp), fun hF failure h => ?_⟩
    obtain rfl := Except.error.inj h
    exact (he hF).imp fun _ hq => ⟨hq.1, .inr hq.2⟩
  by_cases hF : Gentle F
  · refine quiet_bind (quiet_rollbackProven hF hr (hq.status _ hs) hq.snapshot hp hnames)
      fun residue e he => ?_
    obtain ⟨q', rfl, hq'⟩ := he
    exact hfailed fun _ => ⟨q', hq.trans hq', rfl⟩
  · exact quiet_bind quiet_any fun residue e _ => hfailed fun h => absurd h hF

/-- `mutate_and_verify` over the current snapshot. -/
lemma quiet_mutateAndVerify {points : MutatePoints} (hr : identity.resource = r)
    (hp : c.snapshot r = some p) :
    EngineQuiet F i m r (mutateAndVerify (fakeBackend caps) cause identity p plan points)
      (Verified F r identity p plan c) c := by
  have hof := (Cell.snapshot_eq_some hp).1
  have hunchanged : ∀ {d : Cell} {error : Error}, Alike c d →
      EngineQuiet F i m r (pure (.error ⟨error, .unchanged⟩)) (Verified F r identity p plan c) d := by
    intro d error hd
    refine quiet_pure Verified.stable ⟨fun _ h => absurd h (by simp), fun _ failure h => ?_⟩
    obtain rfl := Except.error.inj h
    exact ⟨p, .of_alike hd hp, .inl ⟨rfl, rfl⟩⟩
  refine quiet_applyBound hr hp (fun d error hd => hunchanged hd) (fun d error hd hs => ?_)
    fun d q answer hq hs hanswer => ?_
  · exact quiet_failMutation hr hof (.of_alike hd hp) hs (.inr ⟨rfl, rfl⟩)
  have hfail : ∀ {e : Cell} {error : Error}, Alike d e →
      EngineQuiet F i m r (failMutation (fakeBackend caps) cause.lease identity p (some q) error)
        (Verified F r identity p plan c) e := fun he =>
    quiet_failMutation hr hof (hq.alike he) hs (.inl rfl)
  have hofq := (Cell.snapshot_eq_some hq.snapshot).1
  have hmatches : (fakeBackend caps).matchesDesired q plan = true := by
    rw [fakeBackend_matchesDesired hofq, hq.content, stateMatches_mergeState]
  have hproves : (fakeBackend caps).provesCurrent q q = true :=
    (fakeBackend_provesCurrent hofq hofq).mpr rfl
  rcases hanswer with rfl | ⟨error, rfl⟩
  swap
  · exact hfail (.refl d)
  refine quiet_fire fun e answer he _ => ?_
  match answer with
  | .error error => exact hfail he
  | .ok _ =>
  refine quiet_status hr fun e' answer he' hanswer => ?_
  replace he' := he.trans he'
  match answer with
  | .error error => exact hfail he'
  | .ok status =>
  dsimp only
  split
  · exact hfail he'
  refine quiet_readback hr fun e'' answer he'' hanswer => ?_
  have hs' := (he'.snapshot (r := r)).trans hq.snapshot
  replace he'' := he'.trans he''
  rcases hanswer with ⟨p', hp', rfl⟩ | ⟨⟨error, rfl⟩, -⟩
  swap
  · exact hfail he''
  obtain rfl := Option.some.inj (hp'.symm.trans hs')
  refine quiet_fire fun u answer hu _ => ?_
  replace hu := he''.trans hu
  match answer with
  | .error error => exact hfail hu
  | .ok _ =>
  simp only [hmatches, Bool.true_eq_false, ↓reduceIte]
  refine quiet_status hr fun u' answer hu' hanswer => ?_
  replace hu' := hu.trans hu'
  match answer with
  | .error error => exact hfail hu'
  | .ok status =>
  dsimp only
  split
  · exact hfail hu'
  refine quiet_fire fun v answer hv _ => ?_
  replace hv := hu'.trans hv
  match answer with
  | .error error => exact hfail hv
  | .ok _ =>
  simp only [fakeBackend_ownershipIdentity, hproves, Bool.true_eq_false, ↓reduceIte]
  refine quiet_pure Verified.stable ⟨fun mutation h => ?_, fun _ _ h => absurd h (by simp)⟩
  obtain rfl := Except.ok.inj h
  exact ⟨hq.alike hv, (hq.alike hv).status _ hs⟩

end Osdns
