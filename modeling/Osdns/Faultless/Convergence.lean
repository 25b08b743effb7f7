import Osdns.Faultless.Passes
import Osdns.Quiet.Leases

/-!
# Enforce convergence

Further passes over a lease that is registered, when calls no longer fail and nobody else writes.
Whatever happened before, the plan is in effect after two passes unless what is outstanding on the
live record cannot be resolved over the native state; then no number of passes changes anything.
-/

namespace Osdns

open Interaction

variable {r : ResourceId} {L : LeaseId} {c d : Cell} {caps : Capabilities}
variable {i : SessionId} {m : ManagerId} {w u v : World} {n : Nat}
variable {live : FakeLive} {p q : FakeSnapshot} {outcome : ReconcileOutcome}
variable {gate : Option Duration} {plan : NormalizedConfig}

/-! ## One pass -/

lemma Enlisted.matches_iff (h : Enlisted r L live p c) :
    Matches plan c ↔ stateMatches p.data.state plan = true := by
  have hstate := (Cell.snapshot_eq_some h.snapshot).2.1
  constructor
  · rintro ⟨state, hs, hm⟩
    exact Option.some.inj (hs.symm.trans hstate) ▸ hm
  · exact fun hm => ⟨_, hstate, hm⟩

/-- A live record that took over from `live` over the snapshot `p`, for the same plan. -/
structure Succeeds (r : ResourceId) (L : LeaseId) (live : FakeLive) (p : FakeSnapshot)
    (live' : FakeLive) (p' : FakeSnapshot) (d : Cell) : Prop where
  enlisted : Enlisted r L live' p' d
  plan_eq : live'.plan = live.plan
  stuck : ¬ live.state.Resolves p → p' = p ∧ ¬ live'.state.Resolves p
  settled : live.state.Resolves p → live'.state.isSettled = true

/-- After a pass over what can be resolved the plan is in effect, or the breaker refused. -/
lemma PassEnd.succeeds (h : PassEnd r m L live p gate outcome d) :
    ∃ live' p', Succeeds r L live p live' p' d ∧
      (live.state.Resolves p → stateMatches p'.data.state live.plan = true ∨
        gate ≠ none ∧ Refused m d) ∧
      (live.state.rolls = false → stateMatches p.data.state live.plan = true → p' = p) := by
  cases h with
  | balked hno h ho =>
      obtain ⟨live', he, hplan, -, hstuck⟩ := h
      exact ⟨live', p, ⟨he, hplan, fun _ => ⟨rfl, hstuck⟩, fun hyes => absurd hyes hno⟩,
        fun hyes => absurd hyes hno, fun _ _ => rfl⟩
  | resolved live' q hyes hs hplan hbefore hold hq h =>
      have hsame : live'.plan = live.plan := (LiveRecord.plan_of_settled hs).trans hplan
      cases h with
      | matched _ _ he hm ho =>
          exact ⟨live', q, ⟨he, hsame, fun hno => absurd hyes hno, fun _ => hs⟩,
            fun _ => .inl (hplan ▸ hm), fun hrolls _ => hq hrolls⟩
      | refused _ he hm hgate hd =>
          exact ⟨live', q, ⟨he, hsame, fun hno => absurd hyes hno, fun _ => hs⟩,
            fun _ => .inr ⟨hgate, hd⟩, fun hrolls _ => hq hrolls⟩
      | overlaid before _ he hm hbefore =>
          obtain ⟨q', he, hstate, -⟩ := he
          refine ⟨_, q', ⟨he, hplan, fun hno => absurd hyes hno, fun _ => rfl⟩, fun _ => .inl ?_,
            fun hrolls hp => ?_⟩
          · rw [hstate, ← hplan]
            exact stateMatches_mergeState _ _
          · rw [hq hrolls, hplan] at hm
            exact absurd (hp.symm.trans hm) (by simp)

/-! ## Any number of passes -/

/-- A number of passes over `r`, one after the other and without faults, each when it is due. -/
inductive Passes (B : Backend FakeSnapshotData) (i : SessionId) (m : ManagerId) (r : ResourceId)
    (w : World) : Nat → World → Prop
  | none : Passes B i m r w 0 w
  | next (n : Nat) (u v : World) (later : Instant) (outcome : ReconcileOutcome)
      (h : Passes B i m r w n u) (hlater : u.clock ≤ later)
      (hdue : ∀ pending, (u.cells r).pending m = some pending → pending.readyAt ≤ later)
      (hrun : (reconcileResource B r).Runs (World.handler noFaults i m) { u with clock := later }
        outcome v) : Passes B i m r w (n + 1) v

/-- A settled record can always be resolved. -/
lemma LiveState.resolves_of_settled {state : FakeLiveState} (h : state.isSettled = true) :
    state.Resolves p := by
  cases state <;> trivial

lemma LiveState.rolls_of_settled {state : FakeLiveState} (h : state.isSettled = true) :
    state.rolls = false := by
  cases state <;> first | rfl | exact absurd h (by simp [LiveState.isSettled])

/-- What a number of passes from `w` leaves. -/
structure PassedOn (r : ResourceId) (m : ManagerId) (L : LeaseId) (live : FakeLive)
    (p : FakeSnapshot) (n : Nat) (live' : FakeLive) (p' : FakeSnapshot) (v : World) : Prop where
  ready : Ready r m L live' p' v
  plan_eq : live'.plan = live.plan
  stuck : ¬ live.state.Resolves p → p' = p ∧ ¬ live'.state.Resolves p
  settled : live.state.Resolves p → 1 ≤ n → live'.state.isSettled = true ∧
    (stateMatches p'.data.state live.plan = true ∨ n = 1 ∧ Refused m (v.cells r))
  start : n = 0 → live' = live ∧ p' = p
  kept : live.state.rolls = false → stateMatches p.data.state live.plan = true → p' = p

lemma Ready.passes (h : Ready r m L live p w) (hrun : Passes (fakeBackend caps) i m r w n v) :
    ∃ live' p', PassedOn r m L live p n live' p' v := by
  induction hrun with
  | none => exact ⟨live, p, h, rfl, fun hno => ⟨rfl, hno⟩, fun _ hn => absurd hn (by omega), fun _ =>
      ⟨rfl, rfl⟩, fun _ _ => rfl⟩
  | next n u v later outcome hpasses hlater hdue hrun ih =>
      obtain ⟨live₁, p₁, h₁⟩ := ih
      have hready : Ready r m L live₁ p₁ { u with clock := later } :=
        ⟨h₁.ready.active, h₁.ready.enlisted, h₁.ready.free⟩
      obtain ⟨hend, hactive, hfree⟩ := (stops_reconcileResource hready).runs hrun
      obtain ⟨live', p', hnext, heffect, hkeep⟩ := hend.succeeds
      refine ⟨live', p', ⟨hactive, hnext.enlisted, hfree⟩, hnext.plan_eq.trans h₁.plan_eq,
        fun hno => ?_, fun hyes _ => ?_, fun hn => absurd hn (by omega), fun hrolls hm => ?_⟩
      · obtain ⟨rfl, hno₁⟩ := h₁.stuck hno
        exact hnext.stuck hno₁
      · have hplan : live₁.plan = live.plan := h₁.plan_eq
        by_cases hn : n = 0
        · subst hn
          obtain ⟨rfl, rfl⟩ := h₁.start rfl
          exact ⟨hnext.settled hyes, (heffect hyes).imp_right fun hr => ⟨rfl, hr.2⟩⟩
        · obtain ⟨hs, hm⟩ := h₁.settled hyes (by omega)
          have hyes₁ : live₁.state.Resolves p₁ := LiveState.resolves_of_settled hs
          refine ⟨hnext.settled hyes₁, .inl ?_⟩
          rcases hm with hm | ⟨-, pending, hpending, hgate⟩
          · rwa [hkeep (LiveState.rolls_of_settled hs) (hplan ▸ hm)]
          · rcases heffect hyes₁ with hm | ⟨hrefuses, -⟩
            · exact hplan ▸ hm
            · -- The deferral was due, so the breaker admits.
              have hlate := (hdue pending hpending).trans (Nat.le_add_right later stableWindow)
              exact absurd (hgate _ hlate) hrefuses
      · obtain rfl := h₁.kept hrolls hm
        by_cases hyes : live.state.Resolves p₁
        · refine hkeep ?_ (h₁.plan_eq ▸ hm)
          by_cases hn : n = 0
          · subst hn
            rwa [(h₁.start rfl).1]
          · exact LiveState.rolls_of_settled (h₁.settled hyes (by omega)).1
        · exact (hnext.stuck (h₁.stuck hyes).2).1

/-- What further passes over a live record do for its plan.  `p` is the native state they start
over. -/
structure Enforcement (B : Backend FakeSnapshotData) (i : SessionId) (m : ManagerId)
    (r : ResourceId) (live : FakeLive) (p : FakeSnapshot) (w : World) (n : Nat) (v : World) :
    Prop where
  /-- Another pass can be made at any later time. -/
  goes_on : ∀ later, ∃ outcome v',
    (reconcileResource B r).Runs (World.handler noFaults i m) { v with clock := later } outcome v'
  /-- Two passes are enough, if any number is. -/
  in_effect : 2 ≤ n → (Matches live.plan (v.cells r) ↔
    live.state.Resolves p ∨ Matches live.plan (w.cells r))
  /-- From then on no pass changes the native state. -/
  quiet : 2 ≤ n → ∀ k v', Passes B i m r v k v' →
    (v'.cells r).snapshot r = (v.cells r).snapshot r
  /-- What cannot be resolved is never enforced. -/
  stuck : ¬ live.state.Resolves p → (v.cells r).snapshot r = some p

lemma Ready.enforcement (h : Ready r m L live p w)
    (hrun : Passes (fakeBackend caps) i m r w n v) :
    Enforcement (fakeBackend caps) i m r live p w n v := by
  obtain ⟨live', p', h'⟩ := h.passes hrun
  have heffect : live.state.Resolves p → 2 ≤ n → stateMatches p'.data.state live.plan = true :=
    fun hyes hn => (h'.settled hyes (by omega)).2.resolve_right fun hr => by omega
  refine ⟨fun later => ?_, fun hn => ?_, fun hn k v' hk => ?_, fun hno => ?_⟩
  · have hready : Ready r m L live' p' { v with clock := later } :=
      ⟨h'.ready.active, h'.ready.enlisted, h'.ready.free⟩
    obtain ⟨outcome, v', hr, -⟩ := (stops_reconcileResource hready).exists_run
    exact ⟨outcome, v', hr⟩
  · rw [h'.ready.enlisted.matches_iff, h.enlisted.matches_iff]
    by_cases hyes : live.state.Resolves p
    · simp [hyes, heffect hyes hn]
    · simp [hyes, (h'.stuck hyes).1]
  · obtain ⟨live'', p'', h''⟩ := h'.ready.passes hk
    rw [h''.ready.enlisted.snapshot, h'.ready.enlisted.snapshot]
    by_cases hyes : live.state.Resolves p
    · have hs := (h'.settled hyes (by omega)).1
      rw [h''.kept (LiveState.rolls_of_settled hs) (h'.plan_eq ▸ heffect hyes hn)]
    · obtain ⟨rfl, hno⟩ := h'.stuck hyes
      rw [(h''.stuck hno).1]
  · rw [h'.ready.enlisted.snapshot, (h'.stuck hno).1]

/-- Passes one after the other, as long as the next is due at once. -/
def World.passes (B : Backend FakeSnapshotData) (i : SessionId) (m : ManagerId) (r : ResourceId)
    (w : World) : Nat → Option World
  | 0 => some w
  | n + 1 => (World.passes B i m r w n).bind fun u =>
      if ((u.cells r).pending m).all fun pending => pending.readyAt ≤ u.clock then
        ((reconcileResource B r).evaluate (World.answer (fun _ => false) i m) u).map (·.2)
      else none

lemma World.passes_sound {B : Backend FakeSnapshotData} (h : World.passes B i m r w n = some v) :
    Passes B i m r w n v := by
  induction n generalizing v with
  | zero =>
      obtain rfl := Option.some.inj h
      exact .none
  | succ n ih =>
      obtain ⟨u, hu, hv⟩ := Option.bind_eq_some_iff.mp h
      split at hv
      · rename_i hpending
        obtain ⟨⟨outcome, v'⟩, hrun, rfl⟩ := Option.map_eq_some_iff.mp hv
        refine .next n u _ u.clock outcome (ih hu) (le_refl _) (fun pending hp => ?_) ?_
        · exact of_decide_eq_true (Option.all_eq_true _ _ |>.mp hpending pending hp)
        · have hno : (fun _ => false = true) = noFaults := funext fun _ => by simp [noFaults]
          exact Program.runs_of_evaluate (fun _ _ _ h => hno ▸ World.handler_of_answer h) hrun
      · exact absurd hv (by simp)

lemma status_of_toOption {identity : FakeResourceIdentity} {status : ResourceStatus}
    (h : (c.resourceStatus identity).toOption = some status) :
    c.resourceStatus identity = .ok status := by
  cases hs : c.resourceStatus identity with
  | ok status' =>
      rw [hs] at h
      exact congrArg _ (Option.some.inj h)
  | error error =>
      rw [hs] at h
      exact absurd h (by simp [Except.toOption])

namespace System

variable {S : Setup} {s : System}

/-- In every state that serial runs reach, whatever failed before: passes without faults over a
registered resource enforce the plan of its lease. -/
theorem passes_enforce (hserial : S.serial)
    (hfire : ¬ S.faults (.engine (.fire .afterUpdatePrepared))) (h : Reachable S s)
    (hquiet : ∀ i, s.sessions i = none) (hactive : (s.world.cells r).active m = some L)
    (hlive : (s.world.cells r).live L = some live)
    (hsame : (s.world.cells r).resourceStatus live.record.identity = .ok .same)
    (hp : (s.world.cells r).snapshot r = some p)
    (hrun : Passes (S.manager m).backend i m r s.world n v) :
    Enforcement (S.manager m).backend i m r live p s.world n v := by
  have hrest := (SerialOn.reachable hserial hfire h (r := r)).idle fun i session hi =>
    absurd hi (by simp [hquiet i])
  obtain ⟨⟨live', hh⟩, -⟩ := hrest.registered hactive
  obtain rfl := Option.some.inj (hh.live_eq.symm.trans hlive)
  obtain ⟨p', he⟩ := hh.ok.enlisted hlive hsame
  obtain rfl := Option.some.inj (he.snapshot.symm.trans hp)
  have hready : Ready r m L live' p' s.world := ⟨hactive, he, tokens_free h hquiet m⟩
  exact hready.enforcement hrun

/-- An overlay that another program took away is back after two passes. -/
theorem passes_enforce_overwritten : ∃ (s : System) (live : FakeLive) (v : World),
    Reachable (oneAtATime .enforce) s ∧ (s.world.cells .loopback).live 0 = some live ∧
      ¬ Matches live.plan (s.world.cells .loopback) ∧
      Passes ((oneAtATime .enforce).manager 0).backend 1 0 .loopback s.world 2 v ∧
      Matches live.plan (v.cells .loopback) := by
  have hrun : ((pristine (World.pristine (.single .loopback) .empty)).performOrderly
      (oneAtATime .enforce) [.start 0 (.apply ⟨.global, [], [], [], some true⟩), .run 0 33,
        .finish 0, .write .loopback .empty]).any (fun s => s.atRest &&
          decide ((s.world.cells .loopback).active 0 = some 0) &&
          decide ((s.world.cells .loopback).state = some .empty) &&
          (((s.world.cells .loopback).live 0).any fun live =>
            decide (live.state = .committed) &&
              !stateMatches .empty live.plan &&
              decide (((s.world.cells .loopback).resourceStatus live.record.identity).toOption =
                some .same)) &&
          (World.passes ((oneAtATime .enforce).manager 0).backend 1 0 .loopback s.world 2).isSome) =
            true := by
    decide +kernel
  obtain ⟨s, hs, hstate⟩ := (Option.any_eq_true _ _).mp hrun
  simp only [Bool.and_eq_true, decide_eq_true_eq] at hstate
  obtain ⟨⟨⟨⟨hrest, hactive⟩, hcontent⟩, hlive⟩, hpasses⟩ := hstate
  obtain ⟨live, hlive, hfacts⟩ := (Option.any_eq_true _ _).mp hlive
  simp only [Bool.and_eq_true, decide_eq_true_eq, Bool.not_eq_true'] at hfacts
  obtain ⟨⟨hcommitted, hdiffers⟩, hstatus⟩ := hfacts
  obtain ⟨v, hv⟩ := Option.isSome_iff_exists.mp hpasses
  have hreach : Reachable (oneAtATime .enforce) s := reachable_performOrderly hs
  have hp : (s.world.cells .loopback).snapshot .loopback =
      some ⟨.fake, .loopback, ⟨.empty, (s.world.cells .loopback).generation⟩⟩ := by
    rw [Cell.snapshot, hcontent, Option.map_some]
  have hrun := World.passes_sound hv
  have henforced := passes_enforce trivial (oneAtATime_hook _) hreach (hreach.sessions_none hrest)
    hactive hlive (status_of_toOption hstatus) hp hrun
  refine ⟨s, live, v, hreach, hlive, fun hm => ?_, hrun,
    (henforced.in_effect (le_refl _)).mpr (.inl ?_)⟩
  · obtain ⟨state, hs, hm⟩ := hm
    obtain rfl := Option.some.inj (hcontent.symm.trans hs)
    exact absurd hm (by simp [hdiffers])
  · rw [hcommitted]
    trivial

end System

end Osdns
