import Osdns.Enforce.Breaker
import Osdns.Faultless.Overlay

/-!
# Passes without faults and without interference

`reconcileResource` in the world, for a lease that is registered on its resource.  A pass settles
the live record and then finds the plan in effect, is refused by the breaker, or carries out an
overlay; over a live record that cannot be resolved it only defers.
-/

namespace Osdns

open Interaction
open Interaction.Fallible (ask value attempt)

variable {r : ResourceId} {L : LeaseId} {c d : Cell} {caps : Capabilities} {α : Type}
variable {i : SessionId} {m : ManagerId} {w u v : World}
variable {live : FakeLive} {p q : FakeSnapshot} {outcome : ReconcileOutcome}

/-! ## Calls besides -/

/-- Registrations, deferrals, the breaker, the tokens that are held and the clock are the same. -/
structure World.SameBooks (r : ResourceId) (w u : World) : Prop where
  active : (u.cells r).active = (w.cells r).active
  pending : (u.cells r).pending = (w.cells r).pending
  breaker : (u.cells r).breaker = (w.cells r).breaker
  tokens : u.tokens = w.tokens
  clock : u.clock = w.clock

lemma World.SameBooks.trans (h₁ : w.SameBooks r u) (h₂ : u.SameBooks r v) : w.SameBooks r v :=
  ⟨h₂.active.trans h₁.active, h₂.pending.trans h₁.pending, h₂.breaker.trans h₁.breaker,
    h₂.tokens.trans h₁.tokens, h₂.clock.trans h₁.clock⟩

section Calls

variable {o : ManagerOp FakeSnapshotData FakeIdentity}
variable {k : ManagerRet FakeSnapshotData FakeIdentity o → FakeManaged α}
variable {answer : ManagerRet FakeSnapshotData FakeIdentity o} {Q : α → World → Prop}

/-- A call has the answer of an execution that proceeds. -/
lemma stops_proceed (hx : w.exec i m .proceed o = some (answer, u))
    (hk : WorldStops i m (k answer) Q u) : WorldStops i m (.call o k) Q w := by
  refine .step ⟨.proceed, .inl rfl, hx⟩ (fun answer' u' h => ?_) hk
  obtain ⟨fate, hfate, hx'⟩ := h
  obtain rfl := hfate.resolve_right id
  obtain ⟨rfl, rfl⟩ := Prod.mk.inj (Option.some.inj (hx'.symm.trans hx))
  exact ⟨rfl, rfl⟩

/-- A call on the cell of `r`. -/
lemma stops_on (ht : o.target = some r)
    (hx : (w.cells r).exec r (w.context i m) .proceed o = some (answer, d))
    (hk : ∀ u, u.cells r = d → u.tokens = w.tokens → u.clock = w.clock →
      WorldStops i m (k answer) Q u) : WorldStops i m (.call o k) Q w := by
  refine stops_proceed (u := (w.setCell r d).account o) ?_ (hk _ ?_ ?_ ?_)
  · simp only [World.exec, ht, hx, Option.map_some]
  · rw [World.account_cells, World.setCell_cells_self]
  · rw [World.account_tokens]
    rfl
  · unfold World.account
    split <;> rfl

end Calls

/-- A call of the engine keeps the books. -/
lemma Cell.books_engine {o : EngineOp FakeSnapshotData FakeIdentity}
    {answer : EngineRet FakeSnapshotData FakeIdentity o} {ctx : Context} {fate : Fate}
    (hx : c.execEngine r ctx fate o = some (answer, d)) :
    d.active = c.active ∧ d.pending = c.pending ∧ d.breaker = c.breaker := by
  have hguarded : ∀ {attempt : MutationAttempt FakeSnapshotData} {cause : Cause}
      {expected : FakeSnapshotData} {now : Instant},
      ((attempt.produced = none ∧ d = c) ∨ ∃ old new, expected = ⟨old, c.generation⟩ ∧
        attempt.produced = some (c.produced r new) ∧ d = c.mutate cause old new now) →
      d.active = c.active ∧ d.pending = c.pending ∧ d.breaker = c.breaker := by
    rintro _ _ _ _ (⟨-, rfl⟩ | ⟨old, new, -, -, rfl⟩) <;> exact ⟨rfl, rfl, rfl⟩
  cases o with
  | fire | journalRecords | newLeaseId => exact absurd hx (by simp [Cell.execEngine])
  | resourceStatus | readback | capture | journalWrite | journalRemove =>
      cases fate <;> simp only [Cell.execEngine, Cell.journalWrite, Cell.journalRemove,
        Option.some.injEq, Prod.mk.injEq] at hx <;> obtain ⟨-, rfl⟩ := hx <;> exact ⟨rfl, rfl, rfl⟩
  | observe =>
      cases fate <;> cases hs : c.snapshot r <;>
        simp only [Cell.execEngine, hs, Option.some.injEq, Prod.mk.injEq] at hx <;>
        obtain ⟨-, rfl⟩ := hx <;> exact ⟨rfl, rfl, rfl⟩
  | applyGuarded cause resource expected plan =>
      have hcases := c.applyGuarded_cases (r := r) cause ctx.now fate expected plan
      rw [Option.some.inj hx] at hcases
      exact hguarded hcases
  | restoreGuarded cause resource expected target =>
      have hcases := c.restoreGuarded_cases (r := r) cause ctx.now fate expected target
      rw [Option.some.inj hx] at hcases
      exact hguarded hcases
  | apply cause resource plan =>
      cases fate <;> cases hs : c.state <;>
        simp only [Cell.execEngine, Cell.applyUnguarded, hs, Option.some.injEq,
          Prod.mk.injEq] at hx <;> obtain ⟨-, rfl⟩ := hx <;> exact ⟨rfl, rfl, rfl⟩
  | restore cause resource snapshot =>
      simp only [Cell.execEngine, Cell.restoreUnguarded, Option.some.injEq] at hx
      split at hx
      · obtain ⟨-, rfl⟩ := Prod.mk.inj hx
        exact ⟨rfl, rfl, rfl⟩
      · obtain ⟨-, rfl⟩ := Prod.mk.inj hx
        exact ⟨rfl, rfl, rfl⟩
      · split at hx
        · obtain ⟨-, rfl⟩ := Prod.mk.inj hx
          exact ⟨rfl, rfl, rfl⟩
        · split at hx <;> obtain ⟨-, rfl⟩ := Prod.mk.inj hx <;> exact ⟨rfl, rfl, rfl⟩
  | liveGet ref =>
      obtain ⟨live, -, heq⟩ := Option.map_eq_some_iff.mp hx
      obtain ⟨-, rfl⟩ := Prod.mk.inj heq
      exact ⟨rfl, rfl, rfl⟩
  | liveSet ref live =>
      obtain ⟨-, rfl⟩ := Prod.mk.inj (Option.some.inj hx)
      exact ⟨rfl, rfl, rfl⟩

/-- A program of the engine runs in the world as on the cell of its resource, and keeps the
books. -/
lemma stops_engineOn {p : Engine FakeSnapshotData FakeIdentity α} {Q : α → Cell → Prop}
    (h : EngineStops (w.context i m) r p Q (w.cells r)) :
    WorldStops i m (engine p) (fun a u => Q a (u.cells r) ∧ w.SameBooks r u) w := by
  have hbooks : EngineStops (w.context i m) r p (fun a d => Q a d ∧ d.active = (w.cells r).active ∧
      d.pending = (w.cells r).pending ∧ d.breaker = (w.cells r).breaker) (w.cells r) := by
    refine .simulate (f := id) (fun _ _ _ h => h) (fun o c answer d hc _ ho => ⟨ho, ?_⟩)
      ⟨rfl, rfl, rfl⟩ h
    obtain ⟨fate, -, ⟨-, hx⟩ | ⟨-, rfl, -⟩⟩ := ho
    · obtain ⟨hactive, hpending, hbreaker⟩ := Cell.books_engine hx
      exact ⟨hactive.trans hc.1, hpending.trans hc.2.1, hbreaker.trans hc.2.2⟩
    · exact hc
  refine (stops_engine hbooks).mono fun a u hu => ⟨hu.1.1, ?_⟩
  exact ⟨hu.1.2.1, hu.1.2.2.1, hu.1.2.2.2, hu.2.tokens, hu.2.clock⟩

/-! ## The readbacks -/

/-- The engine programs of a pass that only read. -/
lemma stops_readOnly {p : Engine FakeSnapshotData FakeIdentity α} {a : α}
    (h : EngineStops (w.context i m) r p (fun answer d => answer = a ∧ d = w.cells r) (w.cells r)) :
    WorldStops i m (engine p)
      (fun answer u => answer = a ∧ u.cells r = w.cells r ∧ w.SameBooks r u) w :=
  (stops_engineOn h).mono fun _ _ hu => ⟨hu.1.1, hu.1.2, hu.2⟩

lemma stops_passReadback (h : Enlisted r L live p (w.cells r)) :
    WorldStops i m (passReadback ⟨L, r⟩)
      (fun answer u => answer = .ok p ∧ u.cells r = w.cells r ∧ w.SameBooks r u) w := by
  refine Program.Stops.bind (stops_readOnly (a := .ok p)
    (stops_readback (k := pure) rfl h.snapshot ⟨rfl, rfl⟩)) fun answer u hu => ?_
  obtain ⟨rfl, hu⟩ := hu
  exact ⟨rfl, hu⟩

/-! ## The decision -/

/-- What the breaker of `m` answers at a time. -/
def Cell.gateAt (m : ManagerId) (now : Instant) (c : Cell) : Option Duration × BreakerState :=
  ((c.breaker m).getD {}).gate now

/-- A deferral of `m` is pending, and when it is due the breaker admits. -/
def Refused (m : ManagerId) (c : Cell) : Prop :=
  ∃ pending, c.pending m = some pending ∧
    ∀ now, pending.readyAt ≤ now → (c.gateAt m now).1 = none

/-- How a pass over a settled live record ends: it finds the plan in effect, is refused by the
breaker, or overlays the state it found, which becomes the base. -/
inductive PassOver (r : ResourceId) (m : ManagerId) (L : LeaseId) (live : FakeLive)
    (q : FakeSnapshot) (gate : Option Duration) : ReconcileOutcome → Cell → Prop
  | matched (outcome : ReconcileOutcome) (d : Cell) (h : Enlisted r L live q d)
      (hq : stateMatches q.data.state live.record.desired = true)
      (ho : outcome = .stillOurs ∨ outcome = .deferred) : PassOver r m L live q gate outcome d
  | refused (d : Cell) (h : Enlisted r L live q d)
      (hq : stateMatches q.data.state live.record.desired = false) (hgate : gate ≠ none)
      (hd : Refused m d) : PassOver r m L live q gate .deferred d
  | overlaid (before : FakeSnapshot) (d : Cell) (h : Overlaid r L live.record q before d)
      (hq : stateMatches q.data.state live.record.desired = false)
      (hbefore : before.data.state = q.data.state) : PassOver r m L live q gate .rebased d

/-- The cell after a deferral. -/
def Cell.deferred (m : ManagerId) (delay : Duration) (failed : Bool) (now : Instant) (c : Cell) :
    Cell :=
  { c with
    pending := Function.update c.pending m (some (Pending.deferAt delay failed now (c.pending m))) }

lemma Cell.alike_deferred {delay : Duration} {failed : Bool} {now : Instant} :
    Alike c (c.deferred m delay failed now) :=
  ⟨⟨rfl, rfl, rfl, rfl, rfl, rfl, rfl, rfl, rfl⟩, rfl, rfl⟩

lemma stops_defer {k : Unit → FakeManaged α} {Q : α → World → Prop} {delay : Duration} {failed : Bool}
    (hk : ∀ u, u.cells r = (w.cells r).deferred m delay failed w.clock → u.tokens = w.tokens →
      u.clock = w.clock → WorldStops i m (k ()) Q u) :
    WorldStops i m (Managed.defer r delay failed >>= k) Q w :=
  stops_on rfl rfl hk

/-- A deferral is never due before the deferral it replaces. -/
lemma Pending.readyAt_le (delay : Duration) (failed : Bool) (now : Instant) (pending : Pending) :
    pending.readyAt ≤ (Pending.deferAt delay failed now (some pending)).readyAt :=
  le_max_left _ _

lemma Pending.le_readyAt (delay : Duration) (now : Instant) (pending : Option Pending) :
    now + delay ≤ (Pending.deferAt delay false now pending).readyAt :=
  le_max_right _ _

lemma Refused.deferred {delay : Duration} {failed : Bool} {now : Instant} (h : Refused m c) :
    Refused m (c.deferred m delay failed now) := by
  obtain ⟨pending, hpending, hgate⟩ := h
  refine ⟨_, Function.update_self .., fun later hl => hgate later ?_⟩
  rw [hpending] at hl
  exact (Pending.readyAt_le delay failed now pending).trans hl

/-- The cell after a call of `breaker_gate`. -/
def Cell.gated (m : ManagerId) (now : Instant) (c : Cell) : Cell :=
  { c with breaker := Function.update c.breaker m (some (c.gateAt m now).2) }

/-- When the breaker refuses, the deferral by its cooldown waits long enough. -/
lemma refused_gated {now : Instant} {cooldown : Duration}
    (h : (c.gateAt m now).1 = some cooldown) :
    Refused m ((c.gated m now).deferred m cooldown false now) := by
  refine ⟨_, Function.update_self .., fun later hl => ?_⟩
  have hbreaker : ((c.gated m now).deferred m cooldown false now).gateAt m later =
      (c.gateAt m now).2.gate later := by
    simp only [Cell.gateAt, Cell.deferred, Cell.gated, Function.update_self, Option.getD_some]
  rw [hbreaker]
  have hwait : now + cooldown ≤ later := (Pending.le_readyAt cooldown now _).trans hl
  have hgates := BreakerState.gates_gate now ((c.breaker m).getD {})
  unfold Cell.gateAt at h ⊢
  cases hg : ((c.breaker m).getD {}).gate now with
  | mk answer after =>
      rw [hg] at hgates h
      cases hgates with
      | waiting openUntil isOpen early =>
          obtain rfl := Option.some.inj h
          have hreached : now + (openUntil - now) = openUntil := Nat.add_sub_cancel' early.le
          exact BreakerState.gate_of_expired isOpen (hreached ▸ hwait)
      | opening passed full =>
          obtain rfl := Option.some.inj h
          exact BreakerState.gate_of_expired rfl hwait
      | admitting passed room => exact absurd h (by simp)

lemma stops_breakerGate {k : Option Duration → FakeManaged α} {Q : α → World → Prop}
    (hk : ∀ u, u.cells r = (w.cells r).gated m w.clock → u.tokens = w.tokens → u.clock = w.clock →
      WorldStops i m (k ((w.cells r).gateAt m w.clock).1) Q u) :
    WorldStops i m (Managed.breakerGate r >>= k) Q w :=
  stops_on rfl rfl hk

/-- Only a committed record owns a state, and then the state fits its plan. -/
lemma Enlisted.fits_of_owns (h : Enlisted r L live q c)
    (howns : live.applied.any ((fakeBackend caps).ownsCurrent · q) = true) :
    stateMatches q.data.state live.record.desired = true := by
  obtain ⟨e, he, hproves⟩ := (Option.any_eq_true _ _).mp howns
  obtain ⟨record, state⟩ := live
  cases state with
  | committed =>
      obtain ⟨e', he', hfits⟩ := h.sound
      obtain rfl := Option.some.inj (he.symm.trans he')
      exact (fakeBackend_provesCurrent hfits.of h.of).mp hproves ▸ hfits.fits
  | _ => exact absurd he (by simp [LiveRecord.applied])

lemma stops_reconcileStable (h : Enlisted r L live q (w.cells r))
    (hs : live.state.isSettled = true) :
    WorldStops i m (reconcileStable (fakeBackend caps) ⟨L, r⟩ q)
      (fun outcome u => PassOver r m L live q ((w.cells r).gateAt m w.clock).1 outcome (u.cells r) ∧
        (u.cells r).active = (w.cells r).active ∧ u.tokens = w.tokens) w := by
  have hof := h.of
  have hprepared : live.state.isPrepared = false := by
    cases hstate : live.state <;> simp_all [LiveState.isSettled, LiveState.isPrepared]
  -- An overlay over the state that was read, in a world that still has it.
  have hoverlay : stateMatches q.data.state live.record.desired = false →
      ∀ {u : World} {before : FakeSnapshot}, Enlisted r L live q (u.cells r) →
      (u.cells r).active = (w.cells r).active → u.tokens = w.tokens → before.Of r →
      before.data.state = q.data.state →
      WorldStops i m (engine (applyOverlay (fakeBackend caps) ⟨L, r⟩ q before))
        (fun outcome v =>
          PassOver r m L live q ((w.cells r).gateAt m w.clock).1 outcome (v.cells r) ∧
            (v.cells r).active = (w.cells r).active ∧ v.tokens = w.tokens) u := by
    intro hq u before hu hactive htokens hb hbefore
    refine (stops_engineOn (stops_applyOverlay hu hb)).mono fun outcome v hv => ?_
    obtain ⟨⟨rfl, hover⟩, hbooks⟩ := hv
    exact ⟨.overlaid before _ hover hq hbefore, hbooks.active.trans hactive, hbooks.tokens.trans htokens⟩
  refine Program.Stops.bind (stops_readOnly (a := live)
    (stops_liveGet (k := pure) h.live_eq ⟨rfl, rfl⟩)) fun answer u hu => ?_
  obtain ⟨rfl, hcell, hbooks⟩ := hu
  have hu : Enlisted r L answer q (u.cells r) := hcell ▸ h
  simp only [hprepared, Bool.false_eq_true, false_and, ↓reduceIte]
  have hmatches : (fakeBackend caps).matchesDesired q answer.record.desired =
      stateMatches q.data.state answer.record.desired := fakeBackend_matchesDesired hof _
  split
  · rename_i howns
    have hfits := h.fits_of_owns howns
    rw [hmatches, hfits]
    simp only [↓reduceIte]
    exact ⟨.matched _ _ hu hfits (.inl rfl), hbooks.active, hbooks.tokens⟩
  split
  · rename_i hfits
    rw [hmatches] at hfits
    refine stops_defer fun x hx htokens _ => ⟨.matched _ _ ?_ hfits (.inr rfl), ?_, htokens.trans hbooks.tokens⟩
    · exact hx ▸ hu.alike Cell.alike_deferred
    · rw [hx]
      exact hbooks.active
  rename_i hdiffers
  replace hdiffers : stateMatches q.data.state answer.record.desired = false :=
    hmatches ▸ Bool.eq_false_iff.mpr hdiffers
  split
  · rename_i hequal
    exact hoverlay hdiffers hu hbooks.active hbooks.tokens h.before
      ((fakeBackend_equivalent hof h.before).mp hequal).symm
  refine stops_breakerGate fun x hx htokens hclock => ?_
  rw [hcell, hbooks.clock] at hx ⊢
  have hx' : Enlisted r L answer q (x.cells r) :=
    hx ▸ h.alike ⟨⟨rfl, rfl, rfl, rfl, rfl, rfl, rfl, rfl, rfl⟩, rfl, rfl⟩
  have hactive : (x.cells r).active = (w.cells r).active := by rw [hx]; rfl
  split
  · rename_i cooldown hgate
    refine stops_defer fun y hy htokens' _ => ⟨.refused _ (hy ▸ hx'.alike Cell.alike_deferred) hdiffers ?_ ?_,
      ?_, htokens'.trans (htokens.trans hbooks.tokens)⟩
    · rw [hgate]
      exact Option.some_ne_none cooldown
    · rw [hy, hx, hclock, hbooks.clock]
      exact refused_gated hgate
    · rw [hy]
      exact hactive
  · exact hoverlay hdiffers hx' hactive (htokens.trans hbooks.tokens) hof rfl

/-! ## The pass -/

/-- How a pass over any live record ends. -/
inductive PassEnd (r : ResourceId) (m : ManagerId) (L : LeaseId) (live : FakeLive)
    (p : FakeSnapshot) (gate : Option Duration) (outcome : ReconcileOutcome) (d : Cell) : Prop
  /-- What is outstanding cannot be resolved. -/
  | balked (hno : ¬ live.state.Resolves p) (h : Balks r L live p d)
      (ho : outcome = .deferred ∨ outcome = .failed)
  /-- What is outstanding was resolved, and the pass went on from there. -/
  | resolved (live' : FakeLive) (q : FakeSnapshot) (hyes : live.state.Resolves p)
      (hs : live'.state.isSettled = true) (hplan : live'.record.desired = live.plan)
      (hbefore : live'.record.before = live.record.before)
      (hsame : live.state.isSettled = true → live' = live) (hq : live.state.rolls = false → q = p)
      (h : PassOver r m L live' q gate outcome d)

lemma Balks.alike (h : Balks r L live p c) (hd : Alike c d) : Balks r L live p d := by
  obtain ⟨live', he, h⟩ := h
  exact ⟨live', he.alike hd, h⟩

lemma Overlaid.alike {record : FakeRecord} {before : FakeSnapshot}
    (h : Overlaid r L record q before c) (hd : Alike c d) : Overlaid r L record q before d := by
  obtain ⟨q', he, hstate, hrecord⟩ := h
  exact ⟨q', he.alike hd, hstate, (Alike.record hd).trans hrecord⟩

lemma PassOver.alike {gate : Option Duration} (h : PassOver r m L live q gate outcome c)
    (hd : Alike c d) (hrefused : outcome = .deferred → Refused m c → Refused m d) :
    PassOver r m L live q gate outcome d := by
  cases h with
  | matched _ _ h hq ho => exact .matched _ _ (h.alike hd) hq ho
  | refused _ h hq hgate hc => exact .refused _ (h.alike hd) hq hgate (hrefused rfl hc)
  | overlaid before _ h hq hbefore => exact .overlaid before _ (h.alike hd) hq hbefore

lemma PassEnd.alike {gate : Option Duration} (h : PassEnd r m L live p gate outcome c)
    (hd : Alike c d) (hrefused : outcome = .deferred → Refused m c → Refused m d) :
    PassEnd r m L live p gate outcome d := by
  cases h with
  | balked hno h ho => exact .balked hno (h.alike hd) ho
  | resolved live' q hyes hs hplan hbefore hsame hq h =>
      exact .resolved live' q hyes hs hplan hbefore hsame hq (h.alike hd hrefused)

/-- A settled record asks for the plan it carries. -/
lemma LiveRecord.plan_of_settled (h : live.state.isSettled = true) :
    live.plan = live.record.desired := by
  obtain ⟨record, state⟩ := live
  cases state <;> first | rfl | exact absurd h (by simp [LiveState.isSettled])

lemma stops_sleep {k : Unit → FakeManaged α} {Q : α → World → Prop} {duration : Duration}
    (hk : ∀ u, u.cells = w.cells → u.tokens = w.tokens → u.clock = w.clock + duration →
      WorldStops i m (k ()) Q u) :
    WorldStops i m (Managed.sleep duration >>= k) Q w := by
  change WorldStops i m (.call (.sleep duration) k) Q w
  exact stops_proceed (u := { w with clock := w.clock + duration }) rfl (hk _ rfl rfl rfl)

lemma stops_reconcilePass (h : Enlisted r L live p (w.cells r)) :
    WorldStops i m (reconcilePass (fakeBackend caps) ⟨L, r⟩)
      (fun outcome u => PassEnd r m L live p ((w.cells r).gateAt m (w.clock + stableWindow)).1
          outcome (u.cells r) ∧
        (u.cells r).active = (w.cells r).active ∧ u.tokens = w.tokens) w := by
  refine Program.Stops.bind (stops_engineOn (stops_resolveLiveAny h)) fun resolved u hu => ?_
  obtain ⟨⟨hyes, rfl, live', q, he, hs, hplan, hbefore, hsame, hq⟩ |
    ⟨hno, ⟨error, rfl⟩, hbalks⟩, hbooks⟩ := hu
  · refine Program.Stops.bind (stops_readOnly (a := live')
      (stops_liveGet (k := pure) he.live_eq ⟨rfl, rfl⟩)) fun answer u₁ hu₁ => ?_
    obtain ⟨rfl, hcell₁, hbooks₁⟩ := hu₁
    refine Program.Stops.bind (stops_passReadback (hcell₁ ▸ he)) fun answer u₂ hu₂ => ?_
    obtain ⟨rfl, hcell₂, hbooks₂⟩ := hu₂
    replace hbooks₂ := (hbooks.trans hbooks₁).trans hbooks₂
    refine stops_sleep fun u₃ hcells htokens hclock => ?_
    have hcell₃ : u₃.cells r = u.cells r := (congrFun hcells r).trans (hcell₂.trans hcell₁)
    refine Program.Stops.bind (stops_passReadback (hcell₃ ▸ he)) fun answer u₄ hu₄ => ?_
    obtain ⟨rfl, hcell₄, hbooks₄⟩ := hu₄
    have hequal : (fakeBackend caps).equivalent q q = true :=
      (fakeBackend_equivalent he.of he.of).mpr rfl
    simp only [hequal, Bool.true_eq_false, ↓reduceIte]
    have hu₄ : Enlisted r L answer q (u₄.cells r) := (hcell₄.trans hcell₃) ▸ he
    have hactive : (u₄.cells r).active = (w.cells r).active := by
      rw [hbooks₄.active, hcells, hbooks₂.active]
    have hgate : (u₄.cells r).gateAt m u₄.clock =
        (w.cells r).gateAt m (w.clock + stableWindow) := by
      unfold Cell.gateAt
      rw [hbooks₄.breaker, hbooks₄.clock, hcells, hclock, hbooks₂.breaker, hbooks₂.clock]
    refine (stops_reconcileStable hu₄ hs).mono fun outcome v hv => ⟨?_, hv.2.1.trans hactive, ?_⟩
    · exact .resolved answer q hyes hs ((LiveRecord.plan_of_settled hs).symm.trans hplan) hbefore
        hsame hq (hgate ▸ hv.1)
    · exact hv.2.2.trans (hbooks₄.tokens.trans (htokens.trans hbooks₂.tokens))
  · have hbalked := hbalks
    obtain ⟨live', he, -, hprepared, -⟩ := hbalked
    refine Program.Stops.bind (stops_readOnly (a := live')
      (stops_liveGet (k := pure) he.live_eq ⟨rfl, rfl⟩)) fun answer u₁ hu₁ => ?_
    obtain ⟨rfl, hcell₁, hbooks₁⟩ := hu₁
    rw [hprepared]
    replace hbooks := hbooks.trans hbooks₁
    refine ⟨.balked hno (hcell₁ ▸ hbalks) ?_, hbooks.active, hbooks.tokens⟩
    split
    · exact .inl rfl
    · exact .inr rfl

/-! ## reconcile_resource -/

/-- The cell after `complete_unless_touched`. -/
def Cell.completed (m : ManagerId) (generation : Nat) (now : Instant) (c : Cell) : Cell :=
  { c with
    pending :=
      Function.update c.pending m (Pending.completeUnlessTouched generation now (c.pending m)) }

lemma Cell.alike_completed {generation : Nat} {now : Instant} :
    Alike c (c.completed m generation now) :=
  ⟨⟨rfl, rfl, rfl, rfl, rfl, rfl, rfl, rfl, rfl⟩, rfl, rfl⟩

lemma stops_generationOf {k : Nat → FakeManaged α} {Q : α → World → Prop}
    (hk : ∀ generation u, u.cells r = w.cells r → u.tokens = w.tokens → u.clock = w.clock →
      WorldStops i m (k generation) Q u) :
    WorldStops i m (Managed.generationOf r >>= k) Q w :=
  stops_on rfl rfl (hk _)

lemma stops_reconcileEntry (h : Enlisted r L live p (w.cells r)) :
    WorldStops i m (reconcileEntry (fakeBackend caps) ⟨L, r⟩)
      (fun outcome u => PassEnd r m L live p ((w.cells r).gateAt m (w.clock + stableWindow)).1
          outcome (u.cells r) ∧
        (u.cells r).active = (w.cells r).active ∧ u.tokens = w.tokens) w := by
  refine stops_generationOf fun generation u₁ hcell₁ htokens₁ hclock₁ => ?_
  have h₁ : Enlisted r L live p (u₁.cells r) := hcell₁ ▸ h
  refine Program.Stops.bind (stops_readOnly (a := live)
    (stops_liveGet (k := pure) h₁.live_eq ⟨rfl, rfl⟩)) fun answer u₂ hu₂ => ?_
  obtain ⟨rfl, hcell₂, hbooks₂⟩ := hu₂
  have h₂ : Enlisted r L answer p (u₂.cells r) := hcell₂ ▸ h₁
  refine Program.Stops.bind (stops_readOnly (a := .ok .same)
    (stops_status (k := pure) h₂.on.identity h₂.status ⟨rfl, rfl⟩)) fun status u₃ hu₃ => ?_
  obtain ⟨rfl, hcell₃, hbooks₃⟩ := hu₃
  have h₃ : Enlisted r L answer p (u₃.cells r) := hcell₃ ▸ h₂
  refine Program.Stops.bind (stops_reconcilePass h₃) fun outcome u₄ hu₄ => ?_
  rw [hcell₃, hcell₂, hcell₁, hbooks₃.clock, hbooks₂.clock, hclock₁, hbooks₃.tokens, hbooks₂.tokens,
    htokens₁] at hu₄
  obtain ⟨hend, hactive, htokens⟩ := hu₄
  have hcomplete : outcome ≠ .deferred → WorldStops i m (do
      Managed.completeUnlessTouched r generation
      return outcome : FakeManaged ReconcileOutcome)
      (fun outcome u => PassEnd r m L answer p ((w.cells r).gateAt m (w.clock + stableWindow)).1
          outcome (u.cells r) ∧
        (u.cells r).active = (w.cells r).active ∧ u.tokens = w.tokens) u₄ := by
    intro hne
    refine stops_on (d := (u₄.cells r).completed m generation u₄.clock) rfl rfl
      fun x hx hxt _ => ⟨?_, ?_, hxt.trans htokens⟩
    · exact hx ▸ hend.alike Cell.alike_completed fun ho => absurd ho hne
    · rw [hx]
      exact hactive
  have hdefer : ∀ delay failed, WorldStops i m (do
      Managed.defer r delay failed
      return outcome : FakeManaged ReconcileOutcome)
      (fun outcome u => PassEnd r m L answer p ((w.cells r).gateAt m (w.clock + stableWindow)).1
          outcome (u.cells r) ∧
        (u.cells r).active = (w.cells r).active ∧ u.tokens = w.tokens) u₄ := by
    refine fun delay failed => stops_defer fun x hx hxt _ => ⟨?_, ?_, hxt.trans htokens⟩
    · exact hx ▸ hend.alike Cell.alike_deferred fun _ hc => hc.deferred
    · rw [hx]
      exact hactive
  cases outcome with
  | noActiveLease => exact hcomplete (by simp)
  | stillOurs => exact hcomplete (by simp)
  | rebased => exact hcomplete (by simp)
  | deferred => exact hdefer _ _
  | identityAmbiguous => exact ⟨hend, hactive, htokens⟩
  | failed => exact hdefer _ _

/-- The lease is registered, its live record is in memory, and no token is held. -/
structure Ready (r : ResourceId) (m : ManagerId) (L : LeaseId) (live : FakeLive) (p : FakeSnapshot)
    (w : World) : Prop where
  active : (w.cells r).active m = some L
  enlisted : Enlisted r L live p (w.cells r)
  free : ∀ token, w.tokens m token = none

/-- A call that leaves the cell alike and keeps the books. -/
lemma stops_note {o : ManagerOp FakeSnapshotData FakeIdentity}
    {k : ManagerRet FakeSnapshotData FakeIdentity o → FakeManaged α}
    {answer : ManagerRet FakeSnapshotData FakeIdentity o} {Q : α → World → Prop}
    (ht : o.target = some r)
    (hx : (w.cells r).exec r (w.context i m) .proceed o = some (answer, d))
    (hd : Alike (w.cells r) d) (hactive : d.active = (w.cells r).active)
    (hpending : d.pending = (w.cells r).pending) (hbreaker : d.breaker = (w.cells r).breaker)
    (hk : ∀ u, Alike (w.cells r) (u.cells r) → w.SameBooks r u → WorldStops i m (k answer) Q u) :
    WorldStops i m (.call o k) Q w := by
  refine stops_on ht hx fun u hu htokens hclock => hk u (hu ▸ hd) ⟨?_, ?_, ?_, htokens, hclock⟩
  · rw [hu, hactive]
  · rw [hu, hpending]
  · rw [hu, hbreaker]

lemma stops_activeGet {k : Option LeaseId → FakeManaged α} {Q : α → World → Prop}
    (hactive : (w.cells r).active m = some L)
    (hk : ∀ u, Alike (w.cells r) (u.cells r) → w.SameBooks r u →
      WorldStops i m (k (some L)) Q u) :
    WorldStops i m (Managed.activeGet r >>= k) Q w := by
  have hx : (w.cells r).exec r (w.context i m) .proceed (.activeGet r) =
      some (some L, w.cells r) := by
    simp only [Cell.exec, World.context, hactive]
  exact stops_note rfl hx (.refl _) rfl rfl rfl hk

lemma stops_tokenGet {k : Token → FakeManaged α} {Q : α → World → Prop}
    (hk : ∀ token u, Alike (w.cells r) (u.cells r) → w.SameBooks r u →
      WorldStops i m (k token) Q u) :
    WorldStops i m (Managed.tokenGet r >>= k) Q w := by
  change WorldStops i m (.call (.tokenGet r) k) Q w
  cases ht : (w.cells r).token m with
  | some token =>
      have hx : (w.cells r).exec r (w.context i m) .proceed (.tokenGet r) =
          some (token, w.cells r) := by
        simp only [Cell.exec, World.context, ht]
      exact stops_note rfl hx (.refl _) rfl rfl rfl (hk token)
  | none =>
      have hx : ∃ d, (w.cells r).exec r (w.context i m) .proceed (.tokenGet r) =
          some (w.nextToken, d) ∧ d = { w.cells r with token := d.token } := by
        exact ⟨_, by simp only [Cell.exec, World.context, ht]; rfl, rfl⟩
      obtain ⟨d, hx, hd⟩ := hx
      refine stops_note rfl hx ?_ ?_ ?_ ?_ (hk _)
      · rw [hd]
        exact ⟨⟨rfl, rfl, rfl, rfl, rfl, rfl, rfl, rfl, rfl⟩, rfl, rfl⟩
      all_goals rw [hd]

/-- `reconcile_resource`. -/
lemma stops_reconcileResource (h : Ready r m L live p w) :
    WorldStops i m (reconcileResource (fakeBackend caps) r)
      (fun outcome v => PassEnd r m L live p ((w.cells r).gateAt m (w.clock + stableWindow)).1
          outcome (v.cells r) ∧
        (v.cells r).active m = some L ∧ ∀ token, v.tokens m token = none) w := by
  refine stops_activeGet h.active fun u₁ ha₁ hb₁ => stops_tokenGet fun token u₂ ha₂ hb₂ => ?_
  replace ha₂ := ha₁.trans ha₂
  replace hb₂ := hb₁.trans hb₂
  have hfree : u₂.tokens m token = none := by rw [hb₂.tokens, h.free]
  have hlock : u₂.exec i m .proceed (.tokenLock token) =
      some ((), u₂.setToken m token (some i)) := by
    simp only [World.exec, ManagerOp.target, World.execGlobal, hfree]
  refine stops_proceed hlock ?_
  have hactive₃ : ((u₂.setToken m token (some i)).cells r).active m = some L :=
    (congrFun hb₂.active m).trans h.active
  refine stops_activeGet hactive₃ fun u₄ ha₄ hb₄ => ?_
  refine stops_note rfl rfl ⟨⟨rfl, rfl, rfl, rfl, rfl, rfl, rfl, rfl, rfl⟩, rfl, rfl⟩ rfl rfl rfl
    fun u₅ ha₅ hb₅ => ?_
  have hb₅' := hb₄.trans hb₅
  have h₅ : Enlisted r L live p (u₅.cells r) := h.enlisted.alike (ha₂.trans (ha₄.trans ha₅))
  change WorldStops i m (Program.bind (reconcileEntry (fakeBackend caps) ⟨L, r⟩) _) _ u₅
  refine Program.Stops.bind (stops_reconcileEntry h₅) fun outcome u₆ hu₆ => ?_
  obtain ⟨hend, hactive, htokens⟩ := hu₆
  have hgate : (u₅.cells r).gateAt m (u₅.clock + stableWindow) =
      (w.cells r).gateAt m (w.clock + stableWindow) := by
    unfold Cell.gateAt
    rw [hb₅'.breaker, hb₅'.clock]
    exact congrArg₂ (fun (b : ManagerId → Option BreakerState) (t : Instant) =>
      ((b m).getD {}).gate (t + stableWindow)) hb₂.breaker hb₂.clock
  rw [hgate] at hend
  refine stops_note rfl rfl ⟨⟨rfl, rfl, rfl, rfl, rfl, rfl, rfl, rfl, rfl⟩, rfl, rfl⟩ rfl rfl rfl
    fun u₇ ha₇ hb₇ => ?_
  refine stops_proceed (u := u₇.setToken m token none) rfl ⟨?_, ?_, fun token' => ?_⟩
  · refine hend.alike ha₇ fun _ hc => ?_
    obtain ⟨pending, hpending, hg⟩ := hc
    refine ⟨pending, (congrFun hb₇.pending m).trans hpending, fun now hl => ?_⟩
    have hsame : ((u₇.setToken m token none).cells r).gateAt m now = (u₆.cells r).gateAt m now := by
      unfold Cell.gateAt
      exact congrArg (fun b : ManagerId → Option BreakerState => ((b m).getD {}).gate now) hb₇.breaker
    rw [hsame]
    exact hg now hl
  · refine (congrFun hb₇.active m).trans ((congrFun hactive m).trans ?_)
    exact (congrFun hb₅'.active m).trans hactive₃
  · have hv := World.tokens_unlocked (v := u₇) (i := i) hfree
      (hb₇.tokens.trans (htokens.trans hb₅'.tokens))
    rw [hv, hb₂.tokens, h.free]

end Osdns
