import Osdns.Serial.Restore
import Osdns.Serial.Sessions

/-!
# A reconciliation pass on one resource

A pass works on the lease it finds registered, under the lock that lease holds.  It adopts a new
base only over a state that is not the lease's own, and what it leaves is at rest again.
-/

namespace Osdns

open Interaction
open Interaction.Fallible (ask value attempt)

variable {r : ResourceId} {L K : LeaseId} {b : FakeState} {c c₀ d : Cell}
variable {F : Faults} {i : SessionId} {m : ManagerId} {caps : Capabilities} {α : Type}
variable {live : FakeLive} {p : FakeSnapshot}

/-! ## Engine programs inside a session -/

lemma manager_engine_bind {β : Type} {p : Engine FakeSnapshotData FakeIdentity β}
    {k : β → FakeManaged α} {M : β → Cell → Prop} {Q : α → Cell → Prop}
    (hp : EngineSat F i m r p M c) (ho : Owns m L c)
    (hk : ∀ a d, M a d → Owns m L d → ManagerSat F i m K r (k a) Q d) :
    ManagerSat F i m K r (engine p >>= k) Q c :=
  manager_bind (manager_engine hp ho) fun a d h => hk a d h.1 h.2

lemma manager_liveGet {ref : LiveRef} {k : FakeLive → FakeManaged α} {Q : α → Cell → Prop}
    (href : ref = ⟨L, r⟩) (h : Holding r L c₀ live c) (ho : Owns m L c)
    (hk : ∀ d, Holding r L c₀ live d → Owns m L d → ManagerSat F i m K r (k live) Q d) :
    ManagerSat F i m K r (engine (Engine.liveGet ref) >>= k) Q c := by
  refine manager_engine_bind (M := fun a d => a = live ∧ Holding r L c₀ live d)
    (sat_liveGet href h.inv h.live_eq fun d hd =>
      sat_pure (fun he hx => ⟨hx.1, Holding.stable he hx.2⟩) ⟨rfl, Holding.stable hd h⟩) ho
    fun a d ha hod => ?_
  obtain ⟨rfl, hhd⟩ := ha
  exact hk d hhd hod

/-- A live record under the own lock is stable. -/
lemma Holding.outside (h : Holding r L c₀ live c) (ho : Owns m L c) (hd : Outside m c d) :
    Holding r L c₀ live d ∧ Owns m L d :=
  ⟨Holding.stable (hd.interference ho) h, Owns.stable hd ho⟩

lemma Holding.others (h : Holding r L c₀ live c) (ho : Owns m L c) : Rest r (Others m) c :=
  ho.rest h.inv

/-! ## What a pass leaves -/

/-- The manager has `L` registered, or nothing because `L` was given up. -/
def Enrolled (m : ManagerId) (L : LeaseId) (c : Cell) : Prop :=
  c.active m = some L ∨ (c.active m = none ∧ GivenUp L c)

lemma Enrolled.registered (h : Enrolled m L c) : c.active m = some L ∨ GivenUp L c :=
  h.imp_right And.right

/-- No other lease is registered. -/
lemma Enrolled.eq {L' : LeaseId} (h : Enrolled m L c) (ha : c.active m = some L') : L' = L := by
  rcases h with h | ⟨h, -⟩
  · exact Option.some.inj (ha.symm.trans h)
  · exact absurd (ha.symm.trans h) (by simp)

lemma Enrolled.stable : Stable (outside m) (Enrolled m L) := fun h hc => by
  unfold Enrolled
  rw [h.active]
  exact hc.imp_right fun hn => ⟨hn.1, hn.2.drift h.toDrift⟩

/-- A live record that may stay registered. -/
structure Passed (r : ResourceId) (m : ManagerId) (L : LeaseId) (c : Cell) : Prop where
  owns : Owns m L c
  inv : CellInv r c
  live : ∃ live, c.live L = some live ∧ LiveOK r L live c
  enrolled : Enrolled m L c
  intact : Intact L c

lemma Passed.stable : Stable (outside m) (Passed r m L) := fun h hc => by
  obtain ⟨live, hl, hok⟩ := hc.live
  exact ⟨Owns.stable h hc.owns, hc.inv.drift h.toDrift,
    ⟨live, (congrFun h.live L).trans hl, hok.drift h.toDrift⟩,
    Enrolled.stable h hc.enrolled, by unfold Intact; rw [h.removals]; exact hc.intact⟩

lemma Passed.rest (h : Passed r m L c) : AtRest r c := by
  refine ⟨h.inv, fun m' L' _ hl => ?_, fun m' L' _ ha => ?_⟩
  · rw [h.owns.lock, Option.some.injEq, Prod.mk.injEq] at hl
    exact hl.2 ▸ h.live
  · by_cases hm : m' = m
    · subst hm
      obtain rfl := h.enrolled.eq ha
      exact ⟨h.owns.lock, h.intact⟩
    · rw [h.owns.active m' hm] at ha
      exact absurd ha (by simp)

/-- A live record under the own lock, with registrations and removals as in `c₀`. -/
lemma Holding.passed (h : Holding r L c₀ live c) (ho : Owns m L c) (hi : Intact L c₀)
    (hon : Enrolled m L c₀) : Passed r m L c :=
  ⟨ho, h.inv, ⟨live, h.live_eq, h.ok⟩,
    by unfold Enrolled GivenUp; rw [h.frame.active, h.frame.removals]; exact hon,
    by unfold Intact; rw [h.frame.removals]; exact hi⟩

/-- A removal because the resource is gone or replaced. -/
lemma manager_lifetime {k : Except Error Unit → FakeManaged α} {Q : α → Cell → Prop}
    (h : Holding r L c₀ live c) (ho : Owns m L c) (hi : Intact L c₀) (hon : Enrolled m L c₀)
    (hk : ∀ d answer, Passed r m L d → GivenUp L d → ManagerSat F i m K r (k answer) Q d) :
    ManagerSat F i m K r
      (engine (Engine.journalRemove live.record.leaseId r .lifetime) >>= k) Q c := by
  have hres := h.ok.record.resource
  refine manager_engine_bind (M := fun _ d => Ended r L c₀ d ∧
    d.removals = (L, .lifetime) :: c₀.removals) ?_ ho fun answer d hd hod => ?_
  · nth_rewrite 2 [← hres]
    exact sat_removeLive (k := pure) h (fun hs => absurd hs (by simp)) fun d answer hd hr =>
      sat_pure (fun he hx => ⟨Ended.stable he hx.1, by rw [he.removals]; exact hx.2⟩) ⟨hd, hr⟩
  · obtain ⟨⟨hclosed, hlive⟩, hremovals⟩ := hd
    have hgiven : GivenUp L d := ⟨.lifetime, by simp, by simp [hremovals]⟩
    refine hk d answer ⟨hod, hclosed.inv, hlive, ?_, ?_⟩ hgiven
    · unfold Enrolled
      rw [hclosed.active]
      exact hon.imp_right fun hn => ⟨hn.1, hgiven⟩
    · unfold Intact at hi ⊢
      rw [hremovals]
      simpa using hi

/-- Taking the registration of a lease that was given up away. -/
lemma Passed.unregister (h : Passed r m L c) (hg : GivenUp L c) :
    Passed r m L { c with active := Function.update c.active m none } := by
  have hs := c.silent_set c.lock (Function.update c.active m none)
  obtain ⟨live, hl, hok⟩ := h.live
  exact ⟨⟨h.owns.lock, fun m' hne => (Function.update_of_ne hne _ _).trans (h.owns.active m' hne)⟩,
    h.inv.drift hs.drift, ⟨live, hl, hok.drift hs.drift⟩,
    .inr ⟨Function.update_self .., hg⟩, h.intact⟩

/-- `unregister_active`. -/
lemma manager_unregister {k : Unit → FakeManaged α} {Q : α → Cell → Prop}
    (h : Rest r (Others m) c) (hold : ∀ L, c.active m = some L → L ≠ K → GivenUp L c)
    (hk : ∀ d e, Outside m c d → Outside m { d with active := Function.update d.active m none } e →
      ManagerSat F i m K r (k ()) Q e) :
    ManagerSat F i m K r (unregisterActive r >>= k) Q c := by
  refine manager_activeRemove h hold fun d hd => ?_
  have hrest := (Rest.stable hd h).register none
  refine manager_quiet hrest rfl fun e _ he => ?_
  exact manager_quiet (Rest.stable he hrest) rfl fun u _ hu => hk d u hd (he.trans hu)

lemma Passed.sat_unregister {k : Unit → FakeManaged α} {Q : α → Cell → Prop}
    (h : Passed r m L c) (hg : GivenUp L c)
    (hk : ∀ d, Passed r m L d → ManagerSat F i m K r (k ()) Q d) :
    ManagerSat F i m K r (unregisterActive r >>= k) Q c :=
  manager_unregister h.rest.others (fun _ ha _ => h.enrolled.eq ha ▸ hg) fun _ e hd he =>
    hk e (Passed.stable he ((Passed.stable hd h).unregister (hg.drift hd.toDrift)))

lemma Passed.quiet {o : ManagerOp FakeSnapshotData FakeIdentity}
    {k : ManagerRet FakeSnapshotData FakeIdentity o → FakeManaged α} {Q : α → Cell → Prop}
    (h : Passed r m L c) (ho : o.isQuiet = true)
    (hk : ∀ d answer, Passed r m L d → ManagerSat F i m K r (k answer) Q d) :
    ManagerSat F i m K r (.call o k) Q c :=
  manager_quiet h.rest.others ho fun d answer hd => hk d answer (Passed.stable hd h)

lemma Passed.done {a : α} (h : Passed r m L c) :
    ManagerSat F i m K r (pure a) (fun _ => Passed r m L) c :=
  manager_pure Passed.stable h

/-! ## The readbacks of a pass -/

/-- A state that was read while the live record was in place. -/
structure Seen (r : ResourceId) (L : LeaseId) (c₀ : Cell) (live : FakeLive) (p : FakeSnapshot)
    (c : Cell) : Prop where
  holding : Holding r L c₀ live c
  of : p.Of r
  generation_le : p.data.generation ≤ c.generation
  names : Names r L p c

lemma Seen.stable : Stable interference (Seen r L c₀ live p) := fun h hc =>
  ⟨Holding.stable h hc.holding, hc.of, hc.generation_le.trans h.shift.generation_le,
    hc.names.shift h.shift⟩

/-- What `passReadback` leaves. -/
def PassRead (r : ResourceId) (m : ManagerId) (L : LeaseId) (c₀ : Cell) (live : FakeLive)
    (answer : Except ReconcileOutcome FakeSnapshot) (c : Cell) : Prop :=
  match answer with
  | .ok p => Seen r L c₀ live p c ∧ Owns m L c
  | .error _ => Passed r m L c

lemma PassRead.stable {answer : Except ReconcileOutcome FakeSnapshot} :
    Stable (outside m) (PassRead r m L c₀ live answer) := fun h hc => by
  cases answer with
  | ok p => exact ⟨Seen.stable (h.interference hc.2) hc.1, Owns.stable h hc.2⟩
  | error _ => exact Passed.stable h hc

/-- The end of a pass over a resource that is gone. -/
lemma sat_passGone (h : Holding r L c₀ live c) (ho : Owns m L c) (hi : Intact L c₀)
    (hon : Enrolled m L c₀) :
    ManagerSat F i m K r (do
      let live ← engine (Engine.liveGet ⟨L, r⟩)
      match ← engine (Engine.journalRemove live.record.leaseId r .lifetime) with
      | .ok _ =>
          unregisterActive r
          return .error .noActiveLease
      | .error _ => return .error .failed : FakeManaged (Except ReconcileOutcome FakeSnapshot))
      (PassRead r m L c₀ live) c := by
  refine manager_liveGet rfl h ho fun e he hoe => ?_
  refine manager_lifetime he hoe hi hon fun u answer hu hg => ?_
  cases answer with
  | ok _ => exact hu.sat_unregister hg fun v hv => manager_pure PassRead.stable hv
  | error _ => exact manager_pure PassRead.stable hu

lemma sat_passReadback (h : Holding r L c₀ live c) (ho : Owns m L c) (hi : Intact L c₀)
    (hon : Enrolled m L c₀) :
    ManagerSat F i m K r (passReadback ⟨L, r⟩) (PassRead r m L c₀ live) c := by
  refine manager_engine_bind (M := fun answer d => Holding r L c₀ live d ∧
    ∀ p, answer = .ok p → Seen r L c₀ live p d) ?_ ho fun answer d hd hod => ?_
  · refine sat_readback (k := pure) rfl h.inv fun d answer hd hread => sat_pure
      (fun he hx => ⟨Holding.stable he hx.1, fun p hp => Seen.stable he (hx.2 p hp)⟩)
      ⟨Holding.stable hd h, fun p hp => ?_⟩
    have hs := hread p hp
    obtain ⟨hof, -, hg⟩ := Cell.snapshot_eq_some hs
    exact ⟨Holding.stable hd h, hof, hg.le, fun _ => hs⟩
  split
  · exact manager_pure PassRead.stable ⟨hd.2 _ rfl, hod⟩
  · exact sat_passGone hd.1 hod hi hon
  · exact manager_pure PassRead.stable (hd.1.passed hod hi hon)

/-! ## The decision -/

/-- A state that was read and is not the latest of the lease is not its own. -/
lemma Seen.not_ours (h : Seen r L c₀ live p c) (hset : live.state.isSettled = true)
    (happlied : live.applied.any ((fakeBackend caps).ownsCurrent · p) = false)
    (hne : (fakeBackend caps).equivalent p live.record.before = false) : ¬ Ours L c := by
  intro ho
  have hcur := h.names ho
  have hok := h.holding.ok
  obtain ⟨record, state⟩ := live
  cases state with
  | committed =>
      obtain ⟨-, q, hq, he⟩ := hok.state
      have hqp : q = p := Option.some.inj ((he.names ho).symm.trans hcur)
      rw [show (⟨record, .committed⟩ : FakeLive).applied = some q from hq, Option.any_some,
        fakeBackend_ownsCurrent, (fakeBackend_provesCurrent he.issued.of h.of).mpr hqp] at happlied
      exact absurd happlied (by simp)
  | unmutated =>
      have hstate : c.state = some record.before.data.state := hok.state ho
      rw [(Cell.snapshot_eq_some hcur).2.1, Option.some.injEq] at hstate
      rw [(fakeBackend_equivalent h.of hok.record.before).mpr hstate] at hne
      exact absurd hne (by simp)
  | _ => exact absurd hset (by simp [LiveState.isSettled])

/-- An overlay over a state with the content of the recorded base. -/
lemma Seen.sat_reapply (h : Seen r L c₀ live p c) (hset : live.state.isSettled = true)
    (he : (fakeBackend caps).equivalent p live.record.before = true) :
    EngineSat F i m r (applyOverlay (fakeBackend caps) ⟨L, r⟩ p live.record.before)
      (fun _ d => ∃ live, Holding r L c₀ live d) c := by
  have hr := h.holding.ok.record
  rw [fakeBackend_equivalent h.of hr.before] at he
  exact sat_applyOverlay rfl h.holding hset h.holding.ok.logged
    ⟨hr.lease, hr.resource, hr.identity, hr.before, hr.before_le, hr.base,
      fun q hq => absurd hq (by simp)⟩
    ⟨h.of, h.generation_le, fun _ => .inr he⟩ h.names he

/-- An overlay over a state that is adopted as the new base. -/
lemma Seen.sat_rebase (h : Seen r L c₀ live p c) (hset : live.state.isSettled = true)
    (hno : ¬ Ours L c) :
    EngineSat F i m r (applyOverlay (fakeBackend caps) ⟨L, r⟩ p p)
      (fun _ d => ∃ live, Holding r L c₀ live d) c := by
  have hr := h.holding.ok.record
  refine sat_applyOverlay rfl h.holding hset ?_
    ⟨hr.lease, hr.resource, hr.identity, h.of, h.generation_le, fun ho => absurd ho hno,
      fun q hq => absurd hq (by simp)⟩
    ⟨h.of, h.generation_le, fun _ => .inr rfl⟩ h.names rfl
  exact h.holding.ok.logged.imp_right fun hl => ⟨hl.1, .inr fun ho => absurd ho hno⟩

/-- `reconcileStable` over a state that was read twice. -/
lemma sat_reconcileStable (h : Seen r L c₀ live p c) (ho : Owns m L c)
    (hset : live.state.isSettled = true) (hi : Intact L c₀) (hon : Enrolled m L c₀) :
    ManagerSat F i m K r (reconcileStable (fakeBackend caps) ⟨L, r⟩ p)
      (fun _ => Passed r m L) c := by
  have hoverlay : ∀ {d : Cell} {before : FakeSnapshot}, Owns m L d →
      EngineSat F i m r (applyOverlay (fakeBackend caps) ⟨L, r⟩ p before)
        (fun _ d => ∃ live, Holding r L c₀ live d) d →
      ManagerSat F i m K r (engine (applyOverlay (fakeBackend caps) ⟨L, r⟩ p before))
        (fun _ => Passed r m L) d := fun hod hp =>
    (manager_engine hp hod).mono fun _ _ h => h.1.elim fun _ hl => hl.passed h.2 hi hon
  refine manager_engine_bind (M := fun a d => a = live ∧ Seen r L c₀ live p d)
    (sat_liveGet rfl h.holding.inv h.holding.live_eq fun d hd => sat_pure
      (fun he hx => ⟨hx.1, Seen.stable he hx.2⟩) ⟨rfl, Seen.stable hd h⟩) ho fun a d ha hod => ?_
  obtain ⟨rfl, hs⟩ := ha
  have hpassed := hs.holding.passed hod hi hon
  dsimp only
  split
  · exact hpassed.done
  split
  · rename_i happlied
    split
    · exact hpassed.done
    · rename_i hmatch
      -- The verified state of a committed record expresses its plan.
      refine absurd ?_ hmatch
      obtain ⟨q, hq, hown⟩ := (Option.any_eq_true _ _).mp happlied
      obtain ⟨record, state⟩ := a
      cases state with
      | committed =>
          obtain ⟨-, q', hq', he⟩ := hs.holding.ok.state
          obtain rfl : q' = q := Option.some.inj (hq'.symm.trans hq)
          rw [fakeBackend_ownsCurrent, fakeBackend_provesCurrent he.issued.of hs.of] at hown
          rw [fakeBackend_matchesDesired hs.of, ← hown]
          exact he.expresses
      | _ => exact absurd hq (by simp [LiveRecord.applied])
  rename_i happlied
  rw [Bool.not_eq_true] at happlied
  split
  · exact hpassed.quiet rfl fun e _ he => he.done
  split
  · rename_i heq
    exact hoverlay hod (hs.sat_reapply hset heq)
  rename_i hne
  rw [Bool.not_eq_true] at hne
  have hno := hs.not_ours hset happlied hne
  refine manager_quiet hpassed.rest.others rfl fun e answer he => ?_
  have hie := he.interference hod
  cases answer with
  | some cooldown => exact (Passed.stable he hpassed).quiet rfl fun u _ hu => hu.done
  | none =>
      exact hoverlay (Owns.stable he hod) ((Seen.stable hie hs).sat_rebase hset
        (not_ours_stable hie hno))

/-! ## The pass -/

lemma sat_reconcilePass (h : Holding r L c₀ live c) (ho : Owns m L c) (hi : Intact L c₀)
    (hon : Enrolled m L c₀) :
    ManagerSat F i m K r (reconcilePass (fakeBackend caps) ⟨L, r⟩) (fun _ => Passed r m L) c := by
  unfold reconcilePass
  refine manager_engine_bind (sat_resolveLive rfl h fun _ _ _ _ _ _ => h.kept hi) ho
    fun resolved d hd hod => ?_
  obtain ⟨live', hh, -, hset⟩ := hd
  refine manager_liveGet rfl hh hod fun e he hoe => ?_
  have hprepared : live'.state.isPrepared = false := by
    have := he.ok.state
    obtain ⟨record, state⟩ := live'
    cases state with
    | prepared => exact this.elim
    | _ => rfl
  rw [hprepared]
  match resolved with
  | .error error =>
      refine manager_pure Passed.stable (he.passed hoe hi hon)
  | .ok _ =>
  refine manager_bind (sat_passReadback he hoe hi hon) fun answer u hu => ?_
  match answer with
  | .error outcome => exact Passed.done hu
  | .ok first =>
  obtain ⟨hs, hou⟩ := hu
  refine manager_quiet (hs.holding.others hou) rfl fun v _ hv => ?_
  obtain ⟨hhv, hov⟩ := hs.holding.outside hou hv
  change ManagerSat F i m K r (passReadback ⟨L, r⟩ >>= _) _ v
  refine manager_bind (sat_passReadback hhv hov hi hon) fun answer w hw => ?_
  match answer with
  | .error outcome => exact Passed.done hw
  | .ok second =>
  dsimp only
  split
  · exact (hw.1.holding.passed hw.2 hi hon).done
  · exact sat_reconcileStable hw.1 hw.2 (hset rfl) hi hon

/-- The end of a pass over a native resource whose lifetime ended. -/
lemma sat_lifetimeEnded (h : Holding r L c₀ live c) (ho : Owns m L c) (hi : Intact L c₀)
    (hon : Enrolled m L c₀) :
    ManagerSat F i m K r (do
      match ← engine (Engine.journalRemove live.record.leaseId r .lifetime) with
      | .ok _ =>
          unregisterActive r
          Managed.reconcilerRemove r
          return .noActiveLease
      | .error _ =>
          Managed.defer r errorRetry true
          return .failed : FakeManaged ReconcileOutcome) (fun _ => Passed r m L) c := by
  refine manager_lifetime h ho hi hon fun v answer hv hg => ?_
  cases answer with
  | ok _ => exact hv.sat_unregister hg fun w hw => hw.quiet rfl fun x _ hx => hx.done
  | error _ => exact hv.quiet rfl fun w _ hw => hw.done

/-- `reconcileEntry` under the token. -/
lemma sat_reconcileEntry (h : Holding r L c₀ live c) (ho : Owns m L c) (hi : Intact L c₀)
    (hon : Enrolled m L c₀) :
    ManagerSat F i m K r (reconcileEntry (fakeBackend caps) ⟨L, r⟩) (fun _ => Passed r m L) c := by
  unfold reconcileEntry
  refine manager_quiet (h.others ho) rfl fun d generation hd => ?_
  obtain ⟨hhd, hod⟩ := h.outside ho hd
  refine manager_liveGet rfl hhd hod fun e he hoe => ?_
  refine manager_engine_bind (M := fun _ d => Holding r L c₀ live d)
    (sat_status (k := pure) he.ok.record.identity he.inv fun u answer hu =>
      sat_pure Holding.stable (Holding.stable hu he)) hoe fun answer u hu hou => ?_
  have hpassed := hu.passed hou hi hon
  cases answer with
  | error _ => exact hpassed.quiet rfl fun v _ hv => hv.done
  | ok status =>
      cases status with
      | ambiguous => exact hpassed.quiet rfl fun v _ hv => hv.done
      | gone => exact sat_lifetimeEnded hu hou hi hon
      | replaced => exact sat_lifetimeEnded hu hou hi hon
      | same =>
          refine manager_bind (sat_reconcilePass hu hou hi hon) fun outcome v hv => ?_
          cases outcome with
          | identityAmbiguous => exact hv.done
          | _ => exact hv.quiet rfl fun w _ hw => hw.done

end Osdns
