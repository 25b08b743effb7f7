import Osdns.Faultless.Convergence

/-!
# The base a rebase adopts

Over a state that another program wrote, passes overlay the plan and take what they found for the
base: when the lease is restored afterwards, the state of the other program is back.
-/

namespace Osdns

open Interaction

variable {r r' : ResourceId} {L : LeaseId} {c d : Cell} {caps : Capabilities} {F : Faults}
variable {i : SessionId} {m : ManagerId} {K : LeaseId} {w u v : World} {n : Nat}
variable {live : FakeLive} {p q : FakeSnapshot} {outcome : ReconcileOutcome}
variable {gate : Option Duration} {resources : List ResourceId}

/-! ## What passes leave of the other resources -/

/-- A pass over `r`, seen from any resource. -/
lemma sat_reconcileAny (h : AtRest r' c) :
    ManagerSat F i m K r' (reconcileResource (fakeBackend caps) r) (fun _ => AtRest r') c := by
  by_cases hr : r = r'
  · exact hr ▸ sat_reconcileResource (hr ▸ h)
  · exact (calm_reconcileResource hr).keeps Rest.stable h.others h

/-- No operation is under way, and the lease `L` of `m` holds the locks of `resources`. -/
structure Tended (m : ManagerId) (L : LeaseId) (resources : List ResourceId) (w : World) :
    Prop where
  labelled : w.Labelled
  rest : ∀ r, AtRest r (w.cells r)
  locks : ∀ r ∈ resources, (w.cells r).lock = some (m, L)

namespace Tended

lemma inOrder (h : Tended m L resources w) (hr : r ∈ resources) : InOrder r L (w.cells r) := by
  obtain ⟨live, hlive, hok⟩ := (h.rest r).held m L trivial (h.locks r hr)
  exact ⟨live, (h.rest r).inv, hlive, hok, .refl _⟩

lemma pass (h : Tended m L resources w)
    (hrun : (reconcileResource (fakeBackend caps) r).Runs (World.handler F i m) w outcome v) :
    Tended m L resources v := by
  obtain ⟨hlabelled, -, hcells⟩ :=
    h.labelled.runs_cell (vouches_reconcileResource ⟨rfl, rfl⟩ r ∅) hrun
  refine ⟨hlabelled, fun r' => hcells r' _ _ _ (sat_reconcileAny (K := 0) (h.rest r')),
    fun r' hr => ?_⟩
  -- A pass in any other name takes the lock away from nobody.
  have hother : L ≠ L + 1 := (Nat.succ_ne_self L).symm
  exact (hcells r' _ _ _ (Program.Sat.frame (P := fun c => c.lock = some (m, L))
    Outside.lock_held (fun _ _ _ _ hg hc => hg.2.2.lock m L hc hother)
    (sat_reconcileAny (h.rest r')) (h.locks r' hr))).2

lemma passes (h : Tended m L resources w) (hrun : Passes (fakeBackend caps) i m r w n v) :
    Tended m L resources v := by
  induction hrun with
  | none => exact h
  | next n u v later outcome hpasses hlater hdue hrun ih =>
      exact pass (w := { u with clock := later }) ⟨ih.labelled, ih.rest, ih.locks⟩ hrun

end Tended

/-! ## The base -/

/-- The plan was merged onto the content of `p`, which is the base now; the evidence is current. -/
structure Adopted (p : FakeSnapshot) (live' : FakeLive) (p' : FakeSnapshot) : Prop where
  state : live'.state = .committed
  applied : live'.record.applied = some p'
  before : live'.record.before.data.state = p.data.state
  content : p'.data.state = mergeState p.data.state live'.plan

/-- A pass over a state that is not in effect adopts it, unless the breaker refuses. -/
lemma PassEnd.adopts (h : PassEnd r m L live p gate outcome d) (hyes : live.state.Resolves p)
    (hrolls : live.state.rolls = false) (hdiffers : stateMatches p.data.state live.plan = false) :
    ∃ live' p', Enlisted r L live' p' d ∧ live'.plan = live.plan ∧ live'.state.isSettled = true ∧
      (Adopted p live' p' ∨ p' = p ∧ gate ≠ none ∧ Refused m d) := by
  cases h with
  | balked hno => exact absurd hyes hno
  | resolved live' q _ hs hplan hbefore hold hq h =>
      have hsame : live'.plan = live.plan := (LiveRecord.plan_of_settled hs).trans hplan
      obtain rfl := hq hrolls
      cases h with
      | matched _ _ he hm ho =>
          rw [hplan, hdiffers] at hm
          exact absurd hm (by simp)
      | refused _ he hm hgate hd => exact ⟨live', q, he, hsame, hs, .inr ⟨rfl, hgate, hd⟩⟩
      | overlaid before _ he hm hbefore =>
          obtain ⟨q', he, hstate, -⟩ := he
          exact ⟨_, q', he, hplan, rfl, .inl ⟨rfl, rfl, hbefore, hstate⟩⟩

/-- A pass over a plan in effect keeps the record. -/
lemma PassEnd.keeps (h : PassEnd r m L live p gate outcome d) (hs : live.state.isSettled = true)
    (hm : stateMatches p.data.state live.plan = true) : Enlisted r L live p d := by
  cases h with
  | balked hno => exact absurd (LiveState.resolves_of_settled hs) hno
  | resolved live' q _ hset hplan hbefore hold hq h =>
      obtain rfl := hold hs
      obtain rfl := hq (LiveState.rolls_of_settled hs)
      cases h with
      | matched _ _ he => exact he
      | refused _ he hm' | overlaid _ _ he hm' =>
          rw [hplan, hm] at hm'
          exact absurd hm' (by simp)

/-- How far passes over the state `p`, which is not in effect, have come. -/
structure Adopting (r : ResourceId) (m : ManagerId) (L : LeaseId) (plan : NormalizedConfig)
    (p : FakeSnapshot) (n : Nat) (live' : FakeLive) (p' : FakeSnapshot) (v : World) : Prop where
  ready : Ready r m L live' p' v
  plan_eq : live'.plan = plan
  resolves : live'.state.Resolves p'
  rolls : live'.state.rolls = false
  far : Adopted p live' p' ∨ p' = p ∧ (n = 0 ∨ n = 1 ∧ Refused m (v.cells r))

lemma Ready.adopting (h : Ready r m L live p w) (hyes : live.state.Resolves p)
    (hrolls : live.state.rolls = false) (hdiffers : stateMatches p.data.state live.plan = false)
    (hrun : Passes (fakeBackend caps) i m r w n v) :
    ∃ live' p', Adopting r m L live.plan p n live' p' v := by
  induction hrun with
  | none => exact ⟨live, p, h, rfl, hyes, hrolls, .inr ⟨rfl, .inl rfl⟩⟩
  | next n u v later outcome hpasses hlater hdue hrun ih =>
      obtain ⟨live₁, p₁, h₁⟩ := ih
      have hready : Ready r m L live₁ p₁ { u with clock := later } :=
        ⟨h₁.ready.active, h₁.ready.enlisted, h₁.ready.free⟩
      obtain ⟨hend, hactive, hfree⟩ := (stops_reconcileResource hready).runs hrun
      rcases h₁.far with had | ⟨rfl, hn⟩
      · have hm : stateMatches p₁.data.state live₁.plan = true := by
          rw [had.content]
          exact stateMatches_mergeState _ _
        have hs : live₁.state.isSettled = true := by
          rw [had.state]
          rfl
        exact ⟨live₁, p₁, ⟨hactive, hend.keeps hs hm, hfree⟩, h₁.plan_eq, h₁.resolves, h₁.rolls,
          .inl had⟩
      · obtain ⟨live', p', he, hplan, hs, hfar⟩ :=
          hend.adopts h₁.resolves h₁.rolls (h₁.plan_eq ▸ hdiffers)
        refine ⟨live', p', ⟨hactive, he, hfree⟩, hplan.trans h₁.plan_eq,
          LiveState.resolves_of_settled hs, LiveState.rolls_of_settled hs, ?_⟩
        rcases hfar with had | ⟨rfl, hrefuses, hrefused⟩
        · exact .inl had
        · refine .inr ⟨rfl, .inr ⟨?_, hrefused⟩⟩
          rcases hn with rfl | ⟨-, pending, hpending, hgate⟩
          · rfl
          · have hlate := (hdue pending hpending).trans (Nat.le_add_right later stableWindow)
            exact absurd (hgate _ hlate) hrefuses

/-- A base that was adopted can be restored. -/
lemma Adopted.restorable {live' : FakeLive} {p' : FakeSnapshot} (h : Adopted p live' p')
    (he : Enlisted r L live' p' c) (hok : LiveOK r L live' c)
    (hdiffers : stateMatches p.data.state live'.plan = false) : Restorable L c := by
  refine ⟨?_, live', he.live_eq, he.status⟩
  have hstate : StateOK r L live'.record .committed c := h.state ▸ hok.state
  obtain ⟨-, q, hq, hexpresses⟩ := hstate
  obtain rfl := Option.some.inj (hq.symm.trans h.applied)
  refine (hexpresses.issued.owned he.snapshot).resolve_right fun heq => ?_
  rw [h.before, h.content] at heq
  rw [← heq, stateMatches_mergeState] at hdiffers
  exact absurd hdiffers (by simp)

namespace System

variable {S : Setup} {s : System} {lease : Lease} {state : LiveLease}

/-- In every state that serial runs reach, whatever failed before: two passes or more without
faults over a state that is not in effect merge the plan onto it, and a restore without faults
brings that state back. -/
theorem passes_rebase (hserial : S.serial)
    (hfire : ¬ S.faults (.engine (.fire .afterUpdatePrepared))) (h : Reachable S s)
    (hquiet : ∀ i, s.sessions i = none) (hidle : s.leases L = some (m, lease))
    (hstate : lease.state = some state) (hr : r ∈ state.live.map (·.resource))
    (hactive : (s.world.cells r).active m = some L)
    (hlive : (s.world.cells r).live L = some live)
    (hsame : (s.world.cells r).resourceStatus live.record.identity = .ok .same)
    (hp : (s.world.cells r).snapshot r = some p) (hyes : live.state.Resolves p)
    (hrolls : live.state.rolls = false) (hdiffers : ¬ Matches live.plan (s.world.cells r))
    (hn : 2 ≤ n) (hrun : Passes (S.manager m).backend i m r s.world n v) (j : SessionId) :
    (v.cells r).state = some (mergeState p.data.state live.plan) ∧
      (lease.restore (S.manager m)).Stops (World.handler noFaults j m)
        (fun _ w' => (w'.cells r).state = some p.data.state ∧ (w'.cells r).record L = none) v := by
  have hof := ((Keyed.reachable h).idle L (m, lease) hidle).2
  have hrest : ∀ r', AtRest r' (s.world.cells r') := fun r' =>
    (SerialOn.reachable hserial hfire h).idle fun i session hi => absurd hi (by simp [hquiet i])
  have htended : Tended m L (state.live.map (·.resource)) s.world := by
    refine ⟨(Labelled.reachable h).world, hrest, fun r' hr' => ?_⟩
    rw [← hof.leaseId]
    exact ((SerialOn.reachable hserial hfire h).holds L m lease hidle).lock state hstate hr'
  obtain ⟨live₀, hh⟩ := htended.inOrder hr
  obtain rfl := Option.some.inj (hh.live_eq.symm.trans hlive)
  obtain ⟨p₀, he⟩ := hh.ok.enlisted hlive hsame
  obtain rfl := Option.some.inj (he.snapshot.symm.trans hp)
  have hno : stateMatches p₀.data.state live₀.plan = false :=
    Bool.eq_false_iff.mpr fun hm => hdiffers (he.matches_iff.mpr hm)
  have hready : Ready r m L live₀ p₀ s.world := ⟨hactive, he, tokens_free h hquiet m⟩
  obtain ⟨live', p', hend⟩ := hready.adopting hyes hrolls hno hrun
  have hadopted : Adopted p₀ live' p' := hend.far.resolve_right fun ⟨_, hn'⟩ => by omega
  have htended' := htended.passes hrun
  obtain ⟨live'', hh'⟩ := htended'.inOrder hr
  obtain rfl := Option.some.inj (hh'.live_eq.symm.trans hend.ready.enlisted.live_eq)
  have hrestorable : Restorable L (v.cells r) :=
    hadopted.restorable hend.ready.enlisted hh'.ok (hend.plan_eq ▸ hno)
  refine ⟨?_, ?_⟩
  · rw [(Cell.snapshot_eq_some hend.ready.enlisted.snapshot).2.1, hadopted.content, hend.plan_eq]
  · refine (stops_restore rfl hof hstate hend.ready.free fun r' hr' => htended'.inOrder hr').mono
      fun answer w' hw' => ?_
    obtain ⟨⟨live₁, hlive₁, hback, hgone⟩, -⟩ := hw'.restored r hr hrestorable
    obtain rfl := Option.some.inj (hlive₁.symm.trans hend.ready.enlisted.live_eq)
    exact ⟨hback.trans (congrArg some hadopted.before), hgone⟩

/-- A state that another program wrote under a lease comes back when the lease is restored. -/
theorem passes_rebase_overwritten : ∃ (s : System) (lease : Lease) (v w' : World),
    Reachable (oneAtATime .enforce) s ∧ s.leases 0 = some (0, lease) ∧
      (s.world.cells .loopback).state = some (.configured [] [] [] (some false)) ∧
      Passes ((oneAtATime .enforce).manager 0).backend 1 0 .loopback s.world 2 v ∧
      (v.cells .loopback).state = some (.configured [] [] [] (some true)) ∧
      (∃ answer, (lease.restore ((oneAtATime .enforce).manager 0)).Runs (World.handler noFaults 2 0) v
        answer w') ∧
      (w'.cells .loopback).state = some (.configured [] [] [] (some false)) := by
  have hrun : ((pristine (World.pristine (.single .loopback) .empty)).performOrderly
      (oneAtATime .enforce) [.start 0 (.apply ⟨.global, [], [], [], some true⟩), .run 0 33,
        .finish 0, .write .loopback (.configured [] [] [] (some false))]).any (fun s =>
          decide (s.leases 0 = some (0, ⟨0, [.loopback], false,
            some ⟨[⟨0, .loopback⟩], [.loopback], .active⟩⟩)) && s.atRest &&
          decide ((s.world.cells .loopback).active 0 = some 0) &&
          decide ((s.world.cells .loopback).state = some (.configured [] [] [] (some false))) &&
          (((s.world.cells .loopback).live 0).any fun live =>
            decide (live.state = .committed) &&
              decide (live.plan = ⟨[], [], [], some true⟩) &&
              decide (((s.world.cells .loopback).resourceStatus live.record.identity).toOption =
                some .same)) &&
          (World.passes ((oneAtATime .enforce).manager 0).backend 1 0 .loopback s.world 2).isSome) =
            true := by
    decide +kernel
  obtain ⟨s, hs, hfacts⟩ := (Option.any_eq_true _ _).mp hrun
  simp only [Bool.and_eq_true, decide_eq_true_eq] at hfacts
  obtain ⟨⟨⟨⟨⟨hidle, hrest⟩, hactive⟩, hcontent⟩, hlive⟩, hpasses⟩ := hfacts
  obtain ⟨live, hlive, hfacts⟩ := (Option.any_eq_true _ _).mp hlive
  simp only [Bool.and_eq_true, decide_eq_true_eq] at hfacts
  obtain ⟨⟨hcommitted, hplan⟩, hstatus⟩ := hfacts
  obtain ⟨v, hv⟩ := Option.isSome_iff_exists.mp hpasses
  have hreach : Reachable (oneAtATime .enforce) s := reachable_performOrderly hs
  have hp : (s.world.cells .loopback).snapshot .loopback = some ⟨.fake, .loopback,
      ⟨.configured [] [] [] (some false), (s.world.cells .loopback).generation⟩⟩ := by
    rw [Cell.snapshot, hcontent, Option.map_some]
  have hdiffers : ¬ Matches live.plan (s.world.cells .loopback) := by
    rintro ⟨state, hs, hm⟩
    obtain rfl := Option.some.inj (hcontent.symm.trans hs)
    rw [hplan] at hm
    exact absurd hm (by decide)
  have hrun := World.passes_sound hv
  obtain ⟨hmerged, hstops⟩ := passes_rebase trivial (oneAtATime_hook _) hreach
    (hreach.sessions_none hrest) hidle rfl (List.mem_singleton.mpr rfl) hactive hlive
    (status_of_toOption hstatus) hp (by rw [hcommitted]; trivial) (by rw [hcommitted]; rfl) hdiffers
    (le_refl _) hrun 2
  obtain ⟨answer, w', hruns, hback, -⟩ := hstops.exists_run
  refine ⟨s, _, v, w', hreach, hidle, hcontent, hrun, ?_, ⟨answer, hruns⟩, hback⟩
  rw [hmerged, hplan]
  rfl

end System

end Osdns
