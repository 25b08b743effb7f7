import Mathlib.Logic.Relation
import Osdns.Serial.Runs

/-!
# What serial runs guarantee of a lease

Two consequences of `SerialOn.reachable`, for runs in which the operations on a resource run one at
a time and any call may fail, except the hook between the two halves of an update (`fire` fails
only where a test installs a hook).

* `base_journaled` — the write-ahead property: a native state that a lease left different from its
  base has a durable record that knows the base.
* `journal_agrees` — the live record of a lease and its journal record agree whenever no operation
  works on them, and a live record in doubt holds native mutations back until they do.
-/

namespace Osdns

open Interaction

variable {r : ResourceId} {L : LeaseId} {c d e : Cell} {i : SessionId} {m : ManagerId}

namespace System

variable {S : Setup} {s t u : System}

/-! ## The base -/

/-- Unless the lease was given up, its record holds the content the lease started over, from the
moment the native state differs from it. -/
theorem base_journaled (hserial : S.serial)
    (hfire : ¬ S.faults (.engine (.fire .afterUpdatePrepared))) (h : Reachable S s) {b : FakeState}
    (hwriter : (s.world.cells r).writer = .engine L)
    (hbase : baseOf L (s.world.cells r).log = some b)
    (hdiffers : (s.world.cells r).state ≠ some b) (hkept : ¬ GivenUp L (s.world.cells r)) :
    ∃ record, (s.world.cells r).record L = some record ∧ record.before.data.state = b := by
  have hinv := (SerialOn.reachable (r := r) hserial hfire h).inv
  have hremembers := h.remembers r L
  rw [hbase, if_pos hwriter] at hremembers
  obtain rfl := Option.some.inj hremembers
  rcases hinv.logged L hwriter with hsame | hgiven | hrecord
  · exact absurd hsame hdiffers
  · exact absurd hgiven hkept
  · obtain ⟨record, hr⟩ := Option.isSome_iff_exists.mp hrecord
    exact ⟨record, hr, (hinv.records L record hr).base hwriter⟩

/-- An apply that crashes right after its mutation leaves its record behind. -/
theorem base_journaled_crashed : ∃ s : System, Reachable (oneAtATime .cooperative) s ∧
    (s.world.cells .loopback).state ≠ some .empty ∧ ∃ record,
      (s.world.cells .loopback).record 0 = some record ∧ record.before.data.state = .empty := by
  have hrun : ((pristine (World.pristine (.single .loopback) .empty)).performOrderly
      (oneAtATime .cooperative) [.start 0 (.apply ⟨.global, [], [], [], some true⟩), .run 0 15,
        .crash 0]).any (fun s =>
          decide ((s.world.cells .loopback).writer = .engine 0) &&
            decide (baseOf 0 (s.world.cells .loopback).log = some .empty) &&
            decide ((s.world.cells .loopback).state ≠ some .empty) &&
            (s.world.cells .loopback).removals.isEmpty) = true := by decide +kernel
  obtain ⟨s, hs, hstate⟩ := (Option.any_eq_true _ _).mp hrun
  simp only [Bool.and_eq_true, decide_eq_true_eq, List.isEmpty_iff] at hstate
  obtain ⟨⟨⟨hwriter, hbase⟩, hdiffers⟩, hremovals⟩ := hstate
  have hreach : Reachable (oneAtATime .cooperative) s := reachable_performOrderly hs
  exact ⟨s, hreach, hdiffers, base_journaled trivial (oneAtATime_hook _) hreach hwriter hbase
    hdiffers fun ⟨_, _, hmem⟩ => absurd hmem (by simp [hremovals])⟩

end System

/-! ## Single steps -/

lemma Traced.refl (c : Cell) : Traced i c c := (Untouched.refl c).traced

/-- What happens besides the sessions is accounted for: it mutates for no lease. -/
lemma World.Environment.traced {w w' : World} (h : World.Environment w w') (r : ResourceId) :
    Traced i (w.cells r) (w'.cells r) := by
  have hd := h.interferes r
  refine ⟨fun m L live _ _ _ cause old new time hlog => ?_, fun L live live' hl hb hl' hb' => ?_,
    fun L _ hf => hf.drift hd.toDrift⟩
  · rcases h.log r with he | ⟨new, he⟩
    · exact absurd (he.symm.trans hlog).symm (List.cons_ne_self _ _)
    · exact absurd (List.cons.inj (he.symm.trans hlog)).1 (by simp)
  · rw [hd.live, hl, Option.some.injEq] at hl'
    rw [hl', hb'] at hb
    exact absurd hb (by simp)

namespace System

variable {S : Setup} {s t u : System}

/-- Every step of a serial run is accounted for, whoever makes it. -/
lemma SerialOn.traced (h : SerialOn S r s) (hlabelled : s.Labelled) (hst : Step S s t) :
    ∃ i, Traced i (s.world.cells r) (t.world.cells r) := by
  cases hst with
  | start | startOn | finish => exact ⟨0, .refl _⟩
  | environment w henv => exact ⟨0, henv.traced r⟩
  | crash m =>
      have hs : Silent (s.world.cells r) ((s.world.crash m).cells r) :=
        ⟨rfl, rfl, rfl, rfl, rfl, rfl, rfl, rfl, rfl⟩
      exact ⟨0, hs.traced⟩
  | call i session o k answer w running program claimed answered =>
      have hx := hlabelled.world.handler_cell (r := r) answered
      by_cases hr : session.claims r
      · have hsat := (h.working i session running hr).sat
        rw [program] at hsat
        obtain ⟨⟨-, htraced, -⟩, -⟩ := hsat _ ((outside _).refl _) answer _ hx
        exact ⟨i, htraced⟩
      · exact ⟨0, (Cell.handler_other hx fun ht => hr (claimed r ht)).traced⟩

/-- A step adds at most one event to the history. -/
lemma Step.log (hst : Step S s t) : (t.world.cells r).log = (s.world.cells r).log ∨
    ∃ event, (t.world.cells r).log = event :: (s.world.cells r).log := by
  cases hst with
  | start | startOn | finish | crash => exact .inl rfl
  | call i session o k answer w running program claimed answered =>
      rcases (World.chronicle answered r).native with ⟨-, -, hlog | ⟨lease, p, hlog⟩⟩ |
          ⟨cause, old, new, now, -, -, hlog⟩
      · exact .inl hlog
      · exact .inr ⟨_, hlog⟩
      · exact .inr ⟨_, hlog⟩
  | environment w henv =>
      exact (henv.log r).imp_right fun ⟨_, he⟩ => ⟨_, he⟩

/-- A live record is never taken out of memory. -/
lemma Step.live (hst : Step S s t) (h : ((s.world.cells r).live L).isSome) :
    ((t.world.cells r).live L).isSome := by
  cases hst with
  | start | startOn | finish | crash => exact h
  | environment w henv =>
      rw [(henv.cells r).2.2]
      exact h
  | call i session o k answer w running program claimed answered =>
      by_cases hset : ∃ ref live, o = .engine (.liveSet ref live) ∧ ref.resource = r
      · obtain ⟨ref, live, rfl, rfl⟩ := hset
        obtain ⟨fate, -, hx⟩ := answered
        rcases World.exec_cells hx ref.resource with ⟨-, hcell⟩ | ⟨ht, -⟩
        · simp only [Cell.exec, Cell.execEngine, Option.some.injEq, Prod.mk.injEq] at hcell
          rw [← hcell.2]
          by_cases hL : L = ref.lease
          · subst hL
            simp
          · simpa [hL] using h
        · exact absurd rfl ht
      · rw [(World.handler_footprint answered r).live fun ref live ho hr => hset ⟨ref, live, ho, hr⟩]
        exact h

/-! ## Live records and the journal -/

/-- A step over which the lease `L` of manager `m` keeps its lock. -/
def Keeping (S : Setup) (r : ResourceId) (m : ManagerId) (L : LeaseId) (s t : System) : Prop :=
  Step S s t ∧ (t.world.cells r).lock = some (m, L)

/-- Between two states of a cell no native mutation was made for the lease. -/
def Unmoved (L : LeaseId) (c d : Cell) : Prop :=
  ∃ events, d.log = events ++ c.log ∧
    ∀ cause old new time, .mutated cause old new time ∈ events → cause.lease ≠ L

lemma Unmoved.refl (c : Cell) : Unmoved L c c := ⟨[], rfl, fun _ _ _ _ h => absurd h (by simp)⟩

lemma Unmoved.trans (h₁ : Unmoved L c d) (h₂ : Unmoved L d e) : Unmoved L c e := by
  obtain ⟨first, hfirst, hno⟩ := h₁
  obtain ⟨later, hlater, hno'⟩ := h₂
  refine ⟨later ++ first, by rw [hlater, hfirst, List.append_assoc], fun cause old new time h => ?_⟩
  exact (List.mem_append.mp h).elim (hno' cause old new time) (hno cause old new time)

/-- The journal was written successfully with what the live record holds. -/
def Published (L : LeaseId) (c : Cell) : Prop :=
  ∃ live, c.live L = some live ∧ c.confirmed L = some live.record ∧ c.record L = some live.record

/-- What holds of the live record of `L` on `r` and the journal, in a state and afterwards. -/
structure Agreement (S : Setup) (r : ResourceId) (L : LeaseId) (s : System) : Prop where
  /-- At rest, a lease that did not start to end and was not given up has a live record, which the
  journal knows when nothing is outstanding. -/
  settled : ∀ m lease state, s.leases L = some (m, lease) → lease.state = some state →
    state.phase = .active → r ∈ lease.resources →
    (∀ i session, s.sessions i = some session → ¬ session.claims r) →
    ¬ GivenUp L (s.world.cells r) →
      ∃ live, (s.world.cells r).live L = some live ∧
        (live.state.isSettled = true → (s.world.cells r).record L = some live.record) ∧
        (live.state = .committed → live.record.phase = .applied ∧ live.record.applied.isSome)
  /-- From a live record in doubt, native mutations wait for a successful journal write. -/
  blocked : ∀ m live t, (s.world.cells r).lock = some (m, L) →
    (s.world.cells r).live L = some live → live.state.blocked = true →
    Relation.ReflTransGen (Keeping S r m L) s t →
      Unmoved L (s.world.cells r) (t.world.cells r) ∨
        ∃ u, Relation.ReflTransGen (Keeping S r m L) s u ∧
          Relation.ReflTransGen (Keeping S r m L) u t ∧
          Unmoved L (s.world.cells r) (u.world.cells r) ∧ Published L (u.world.cells r)

/-- The live record of a lease that did not start to end, at rest. -/
lemma SerialOn.settled (h : SerialOn S r s) (hkeyed : s.Keyed) {lease : Lease} {state : LiveLease}
    (hidle : s.leases L = some (m, lease)) (hs : lease.state = some state)
    (hphase : state.phase = .active) (hr : r ∈ lease.resources)
    (hquiet : ∀ i session, s.sessions i = some session → ¬ session.claims r)
    (hkept : ¬ GivenUp L (s.world.cells r)) :
    ∃ live, (s.world.cells r).live L = some live ∧ LiveOK r L live (s.world.cells r) ∧
      ¬ Retired L (s.world.cells r) := by
  have hof := (hkeyed.idle L (m, lease) hidle).2
  have hkey : lease.leaseId = L := hof.leaseId
  have hmem : r ∈ state.live.map (·.resource) := ((hof.wf state hs).whole hphase).symm ▸ hr
  have hon := h.holds L m lease hidle
  have hlock := hon.lock state hs hmem
  have hactive := hon.registered state hs hmem hphase
  rw [hkey] at hlock hactive
  have hrest := h.idle hquiet
  have hintact := (hrest.active m L trivial (hactive.resolve_right hkept)).2
  obtain ⟨live, hlive, hok⟩ := hrest.held m L trivial hlock
  refine ⟨live, hlive, hok, fun ⟨removal, hremoval⟩ => ?_⟩
  by_cases hsettled : removal = .settled
  · exact hintact (hsettled ▸ hremoval)
  · exact hkept ⟨removal, hsettled, hremoval⟩

/-- One more step from a live record in doubt. -/
lemma SerialOn.blocked_step (h : SerialOn S r s) (h' : SerialOn S r t) (hlabelled : s.Labelled)
    {live : FakeLive} (hlock : (s.world.cells r).lock = some (m, L))
    (hlive : (s.world.cells r).live L = some live) (hblocked : live.state.blocked = true)
    (hst : Step S s t) :
    Unmoved L (s.world.cells r) (t.world.cells r) ∧
      ((∃ live', (t.world.cells r).live L = some live' ∧ live'.state.blocked = true) ∨
        Published L (t.world.cells r)) := by
  obtain ⟨i, htraced⟩ := h.traced hlabelled hst
  constructor
  · rcases hst.log (r := r) with hlog | ⟨event, hlog⟩
    · exact ⟨[], hlog, fun _ _ _ _ hm => absurd hm (by simp)⟩
    · refine ⟨[event], hlog, fun cause old new time hm => ?_⟩
      obtain rfl := List.mem_singleton.mp hm
      exact htraced.mutation m L live hlock hlive hblocked cause old new time hlog
  · obtain ⟨live', hlive'⟩ := Option.isSome_iff_exists.mp (hst.live (r := r) (L := L) (by simp [hlive]))
    by_cases hb : live'.state.blocked = true
    · exact .inl ⟨live', hlive', hb⟩
    · have hconfirmed := htraced.release L live live' hlive hblocked hlive' (by simpa using hb)
      exact .inr ⟨live', hlive', hconfirmed, h'.inv.confirmed L _ hconfirmed⟩

/-- A live record in doubt holds native mutations back until the journal was written. -/
lemma SerialOn.blocked (hserial : S.serial)
    (hfire : ¬ S.faults (.engine (.fire .afterUpdatePrepared))) (h : Reachable S s)
    {live : FakeLive} (hlock : (s.world.cells r).lock = some (m, L))
    (hlive : (s.world.cells r).live L = some live) (hblocked : live.state.blocked = true)
    (hrun : Relation.ReflTransGen (Keeping S r m L) s t) :
    (Reachable S t ∧ (t.world.cells r).lock = some (m, L) ∧
        Unmoved L (s.world.cells r) (t.world.cells r) ∧
        ∃ live', (t.world.cells r).live L = some live' ∧ live'.state.blocked = true) ∨
      ∃ u, Relation.ReflTransGen (Keeping S r m L) s u ∧
        Relation.ReflTransGen (Keeping S r m L) u t ∧
        Unmoved L (s.world.cells r) (u.world.cells r) ∧ Published L (u.world.cells r) := by
  induction hrun with
  | refl => exact .inl ⟨h, hlock, .refl _, live, hlive, hblocked⟩
  | @tail t t' hrun hst ih =>
      obtain ⟨hreach, hlock, hunmoved, live', hlive', hblocked'⟩ | ⟨u, hu, ht, hrest⟩ := ih
      · have hreach' : Reachable S t' := .step hreach hst.1
        obtain ⟨hnew, hblocked | hpublished⟩ :=
          SerialOn.blocked_step (.reachable (r := r) hserial hfire hreach)
            (.reachable hserial hfire hreach') (.reachable hreach) hlock hlive' hblocked' hst.1
        · exact .inl ⟨hreach', hst.2, hunmoved.trans hnew, hblocked⟩
        · exact .inr ⟨t', hrun.tail hst, .refl, hunmoved.trans hnew, hpublished⟩
      · exact .inr ⟨u, hu, ht.tail hst, hrest⟩

/-- In every serial run, live records and the journal agree. -/
theorem journal_agrees (hserial : S.serial)
    (hfire : ¬ S.faults (.engine (.fire .afterUpdatePrepared))) (h : Reachable S s)
    (r : ResourceId) (L : LeaseId) : Agreement S r L s where
  settled m lease state hidle hs hphase hr hquiet hkept := by
    have hserialOn := SerialOn.reachable (r := r) hserial hfire h
    obtain ⟨live, hlive, hok, hretired⟩ :=
      hserialOn.settled (.reachable h) hidle hs hphase hr hquiet hkept
    refine ⟨live, hlive, fun hset => ?_, fun hcommitted => ?_⟩
    · exact hserialOn.inv.confirmed L _ (hok.agree hretired hset)
    · have hstate := hok.state
      rw [hcommitted] at hstate
      obtain ⟨happlied, p, hp, -⟩ := hstate
      exact ⟨happlied, by rw [hp, Option.isSome_some]⟩
  blocked m live t hlock hlive hblocked hrun :=
    (SerialOn.blocked hserial hfire h hlock hlive hblocked hrun).imp_left fun ht => ht.2.2.1

/-- The state after some single orderly moves over which the lease `L` of manager `m` keeps its
lock. -/
def performKeeping (S : Setup) (r : ResourceId) (m : ManagerId) (L : LeaseId) (s : System) :
    List Move → Option System
  | [] => some s
  | move :: moves =>
      if move.single && s.orderly move then
        (s.perform S move).bind fun t =>
          if (t.world.cells r).lock = some (m, L) then t.performKeeping S r m L moves else none
      else none

lemma Computed.keeping {moves : List Move} (h : Computed S s)
    (hst : s.performKeeping S r m L moves = some t) :
    Relation.ReflTransGen (Keeping S r m L) s t ∧ Computed S t := by
  induction moves generalizing s with
  | nil =>
      obtain rfl := Option.some.inj hst
      exact ⟨.refl, h⟩
  | cons move moves ih =>
      simp only [performKeeping, Bool.and_eq_true, Option.ite_none_right_eq_some] at hst
      obtain ⟨⟨hsingle, horderly⟩, hst⟩ := hst
      obtain ⟨u, hu, hrest⟩ := Option.bind_eq_some_iff.mp hst
      obtain ⟨hlock, hrest⟩ := Option.ite_none_right_eq_some.mp hrest
      obtain ⟨hstep, hclaims⟩ := h.step hsingle (h.allows horderly) hu
      exact (ih ⟨.step h.reachable hstep, hclaims⟩ hrest).imp_left (.head ⟨hstep, hlock⟩)

/-- An apply up to the verification of its mutation. -/
def verifiedApply : Option System :=
  (pristine (World.pristine (.single .loopback) .empty)).performOrderly (oneAtATime .cooperative)
    [.start 0 (.apply ⟨.global, [], [], [], some true⟩), .run 0 24]

/-- The rest of the apply, and an update of its lease. -/
def updateAfter : List Move :=
  [.run 0 8, .finish 0, .startOn 0 (.update 0 ⟨.global, [.v4 134744072], [], [], some true⟩),
    .run 1 37, .finish 1].flatMap Move.singles

/-- Between an apply whose mutation was just verified and the mutation of an update, the journal was
written with the live record.  After the update they agree. -/
theorem journal_agrees_updated : ∃ (s t u : System) (live live' : FakeLive),
    Reachable (oneAtATime .cooperative) s ∧ (s.world.cells .loopback).live 0 = some live ∧
      live.state.blocked = true ∧
      Relation.ReflTransGen (Keeping (oneAtATime .cooperative) .loopback 0 0) s u ∧
      Unmoved 0 (s.world.cells .loopback) (u.world.cells .loopback) ∧
      Published 0 (u.world.cells .loopback) ∧
      Relation.ReflTransGen (Keeping (oneAtATime .cooperative) .loopback 0 0) u t ∧
      ¬ Unmoved 0 (s.world.cells .loopback) (t.world.cells .loopback) ∧
      (t.world.cells .loopback).live 0 = some live' ∧ live'.state.isSettled = true ∧
      (t.world.cells .loopback).record 0 = some live'.record := by
  have hrun : verifiedApply.any (fun s =>
      decide ((s.world.cells .loopback).lock = some (0, 0)) &&
        ((s.world.cells .loopback).live 0).any (fun live => live.state.blocked) &&
        (s.performKeeping (oneAtATime .cooperative) .loopback 0 0 updateAfter).any (fun t =>
          decide (t.leases 0 = some (0, ⟨0, [.loopback], false,
            some ⟨[⟨0, .loopback⟩], [.loopback], .active⟩⟩)) && t.atRest &&
            (t.world.cells .loopback).removals.isEmpty &&
            ((t.world.cells .loopback).live 0).any (fun live => live.state.isSettled) &&
            decide ((t.world.cells .loopback).log =
              .mutated ⟨0, false⟩ ⟨.configured [] [] [] (some true), 1⟩
                ⟨.configured [.v4 134744072] [] [] (some true), 2⟩ 0 ::
                (s.world.cells .loopback).log))) = true := by decide +kernel
  obtain ⟨s, hs, hstate⟩ := (Option.any_eq_true _ _).mp hrun
  simp only [Bool.and_eq_true, decide_eq_true_eq] at hstate
  obtain ⟨⟨hlock, hdoubt⟩, hafter⟩ := hstate
  obtain ⟨live, hlive, hblocked⟩ := (Option.any_eq_true _ _).mp hdoubt
  obtain ⟨t, ht, hend⟩ := (Option.any_eq_true _ _).mp hafter
  simp only [Bool.and_eq_true, decide_eq_true_eq, List.isEmpty_iff] at hend
  obtain ⟨⟨⟨⟨hidle, hrest⟩, hremovals⟩, hdone⟩, hmoved⟩ := hend
  have computed : Computed (oneAtATime .cooperative) s := (computed_pristine _ _).all_orderly hs
  obtain ⟨hkeeping, hcomputed⟩ := computed.keeping ht
  have hmutated : ¬ Unmoved 0 (s.world.cells .loopback) (t.world.cells .loopback) := by
    rintro ⟨events, hlog, hnone⟩
    rw [hmoved] at hlog
    have hevents : [_] = events :=
      List.append_cancel_right (show [_] ++ (s.world.cells .loopback).log = _ from hlog)
    exact hnone _ _ _ _ (hevents ▸ List.mem_singleton_self _) rfl
  have before := journal_agrees trivial (oneAtATime_hook _) computed.reachable .loopback 0
  obtain ⟨u, hu, ht', hstill, hpublished⟩ :=
    (before.blocked 0 live t hlock hlive hblocked hkeeping).resolve_left hmutated
  have after := journal_agrees trivial (oneAtATime_hook _) hcomputed.reachable .loopback 0
  obtain ⟨live', hlive', hsettled, -⟩ :=
    after.settled 0 _ _ hidle rfl rfl (List.mem_singleton_self _)
      (fun i session hi => absurd hi (by simp [hcomputed.reachable.sessions_none hrest i]))
      fun ⟨_, _, hmem⟩ => absurd hmem (by simp [hremovals])
  rw [hlive', Option.any_some] at hdone
  exact ⟨s, t, u, live, live', computed.reachable, hlive, hblocked, hu, hstill, hpublished, ht',
    hmutated, hlive', hdone, hsettled hdone⟩

end System

end Osdns
