import Osdns.Serial.Away
import Osdns.Serial.Pass
import Osdns.Serial.Update
import Osdns.System.Keys

/-!
# Operations on a lease, on one resource

`restore`, `abandon`, `drop` and `update` seen from the cell of one resource `r`, whose lock their
lease holds as long as it has a live record on `r`.  Each leaves the cell at rest: what it still
holds is in order, and what it gave up left nothing behind that counts on the lock.
-/

namespace Osdns

open Interaction
open Interaction.Fallible (ask value attempt)

variable {r : ResourceId} {L K : LeaseId} {c d : Cell}
variable {F : Faults} {i : SessionId} {m : ManagerId} {α β : Type}

/-! ## Calm programs -/

/-- Every call of the program is about another resource, or quiet. -/
abbrev Calm (r : ResourceId) (p : FakeManaged α) : Prop :=
  p.Only ManagerNamed fun o => o.target ≠ some r ∨ o.isQuiet = true

/-- Quiet calls are answered as they are named. -/
lemma ManagerNamed.of_quiet {o : ManagerOp FakeSnapshotData FakeIdentity}
    {answer : ManagerRet FakeSnapshotData FakeIdentity o} (h : Cell.handler F i m r o c answer d)
    (ho : o.isQuiet = true) : ManagerNamed o answer := by
  by_cases ht : o.target = some r
  · cases o with
    | engine o => cases o <;> simp_all [ManagerOp.isQuiet, ManagerOp.target, EngineOp.target]
    | resolveResources scope plan => exact absurd ht (by simp [ManagerOp.target])
    | _ => trivial
  · exact (Cell.handler_elsewhere h ht).2.1

namespace Calm

lemma bind {p : FakeManaged α} {k : α → FakeManaged β} (hp : Calm r p) (hk : ∀ a, Calm r (k a)) :
    Calm r (p >>= k) :=
  Program.Only.bind hp hk

lemma of_away {p : FakeManaged α} (hp : ManagerAway r p) : Calm r p :=
  Program.Only.mono (fun _ h => .inl h) hp

lemma quiet {o : ManagerOp FakeSnapshotData FakeIdentity}
    {k : ManagerRet FakeSnapshotData FakeIdentity o → FakeManaged α} (ho : o.isQuiet = true)
    (hk : ∀ a, Calm r (k a)) : Calm r (.call o k) :=
  ⟨.inr ho, fun a _ => hk a⟩

/-- A calm program is as good as others. -/
lemma sat {p : FakeManaged α} (hp : Calm r p) (hrest : Rest r (Others m) c) :
    ManagerSat F i m K r p (fun _ d => Outside m c d) c := by
  refine Program.Only.sat hp (fun hst h => Outside.trans h hst) (fun o s a t ho hs hst => ?_)
    (.refl m c)
  have hu : Untouched s t := ho.elim (Cell.handler_other hst) (Cell.handler_quiet hst)
  have hct : Outside m c t := hs.trans hu.interference.outside
  refine ⟨?_, ⟨Rest.stable hct hrest, hu.traced, .same hu.lock hu.active⟩, hct⟩
  exact ho.elim (fun h => (Cell.handler_elsewhere hst h).2.1) (.of_quiet hst)

variable {P : Cell → Prop}

/-- A calm program keeps what others keep. -/
lemma keeps {p : FakeManaged α} (hp : Calm r p) (hP : Stable (outside m) P)
    (hrest : Rest r (Others m) c) (hc : P c) : ManagerSat F i m K r p (fun _ => P) c :=
  (hp.sat hrest).mono fun _ _ hd => hP hd hc

/-- A calm program before another one. -/
lemma andThen {p : FakeManaged α} {k : α → FakeManaged β} {Q : β → Cell → Prop} (hp : Calm r p)
    (hP : Stable (outside m) P) (hrest : Rest r (Others m) c) (hc : P c)
    (hk : ∀ a d, P d → ManagerSat F i m K r (k a) Q d) : ManagerSat F i m K r (p >>= k) Q c :=
  manager_bind (hp.keeps hP hrest hc) hk

end Calm

/-- Answers of a cell are answers a handle can rely on. -/
lemma Cell.handler_answers {o : ManagerOp FakeSnapshotData FakeIdentity}
    {answer : ManagerRet FakeSnapshotData FakeIdentity o} (h : Cell.handler F i m r o c answer d) :
    HandleAnswers i o answer := by
  cases o with
  | engine o =>
      cases o with
      | newLeaseId => exact (Cell.handler_elsewhere h (by simp [ManagerOp.target, EngineOp.target])).2.2
      | _ => trivial
  | resolveResources scope plan =>
      exact (Cell.handler_elsewhere h (by simp [ManagerOp.target])).2.1
  | _ => trivial

/-- What a manager program answers holds besides what it establishes. -/
lemma manager_yields {p : FakeManaged α} {φ : α → Prop} {Q : α → Cell → Prop}
    (h : ManagerSat F i m K r p Q c) (hp : p.Yields (HandleAnswers i) φ) :
    ManagerSat F i m K r p (fun a d => Q a d ∧ φ a) c :=
  Program.Sat.yields h (fun _ _ _ _ => Cell.handler_answers) hp

/-! ## Holding the lock -/

/-- The lock is held and the manager has no lease registered. -/
structure Bare (r : ResourceId) (m : ManagerId) (K : LeaseId) (c : Cell) : Prop where
  owns : Owns m K c
  inv : CellInv r c
  active : c.active m = none

/-- The lock is held by a lease whose live record is in order, and the manager has no other lease
registered. -/
structure Leased (r : ResourceId) (m : ManagerId) (L : LeaseId) (c : Cell) : Prop where
  owns : Owns m L c
  inv : CellInv r c
  live : ∃ live, c.live L = some live ∧ LiveOK r L live c
  only : ∀ L', c.active m = some L' → L' = L

/-- A lease that is no longer registered. -/
structure Ending (r : ResourceId) (m : ManagerId) (L : LeaseId) (c : Cell) : Prop
    extends Leased r m L c where
  active : c.active m = none

lemma Bare.stable : Stable (outside m) (Bare r m K) := fun h hc =>
  ⟨Owns.stable h hc.owns, hc.inv.drift h.toDrift, h.active.trans hc.active⟩

lemma Leased.stable : Stable (outside m) (Leased r m L) := fun h hc => by
  obtain ⟨live, hl, hok⟩ := hc.live
  exact ⟨Owns.stable h hc.owns, hc.inv.drift h.toDrift,
    ⟨live, (congrFun h.live L).trans hl, hok.drift h.toDrift⟩,
    fun L' ha => hc.only L' (h.active.symm.trans ha)⟩

lemma Ending.stable : Stable (outside m) (Ending r m L) := fun h hc =>
  ⟨Leased.stable h hc.toLeased, h.active.trans hc.active⟩

lemma Bare.others (h : Bare r m K c) : Rest r (Others m) c := h.owns.rest h.inv

lemma Leased.others (h : Leased r m L c) : Rest r (Others m) c := h.owns.rest h.inv

lemma Ending.bare (h : Ending r m L c) : Bare r m L c := ⟨h.owns, h.inv, h.active⟩

lemma Ending.rest (h : Ending r m L c) : AtRest r c := by
  refine ⟨h.inv, fun m' L' _ hl => ?_, fun m' L' _ ha => ?_⟩
  · rw [h.owns.lock, Option.some.injEq, Prod.mk.injEq] at hl
    exact hl.2 ▸ h.live
  · by_cases hm : m' = m
    · rw [hm, h.active] at ha
      exact absurd ha (by simp)
    · rw [h.owns.active m' hm] at ha
      exact absurd ha (by simp)

/-- A lease that holds the lock at rest. -/
lemma Rest.leased (h : AtRest r c) (hlock : c.lock = some (m, L)) : Leased r m L c := by
  refine ⟨h.others.owns hlock, h.inv, h.held m L trivial hlock, fun L' ha => ?_⟩
  have hlock' := (h.active m L' trivial ha).1
  rw [hlock, Option.some.injEq, Prod.mk.injEq] at hlock'
  exact hlock'.2.symm

lemma Leased.holding (h : Leased r m L c) : ∃ live, Holding r L c live c := by
  obtain ⟨live, hl, hok⟩ := h.live
  exact ⟨live, h.inv, hl, hok, .refl c⟩

/-- The cell after the lock was released. -/
lemma Bare.released (h : Bare r m K c) : AtRest r { c with lock := none } := by
  refine ⟨h.inv.drift (c.silent_set none c.active).drift, fun m' L' _ hl => absurd hl (by simp),
    fun m' L' _ ha => ?_⟩
  by_cases hm : m' = m
  · rw [hm, h.active] at ha
    exact absurd ha (by simp)
  · rw [h.owns.active m' hm] at ha
    exact absurd ha (by simp)

/-! ## Parts of operations -/

lemma calm_releaseAll {locks : List ResourceId} (h : r ∉ locks) :
    Calm r (releaseAll locks : FakeManaged Unit) := by
  induction locks with
  | nil => trivial
  | cons resource locks ih =>
      rw [List.mem_cons, not_or] at h
      exact ⟨.inl fun ht => h.1 (Option.some.inj ht).symm, fun _ _ => ih h.2⟩

/-- Releasing every lock, among them that of `r`. -/
lemma sat_releaseAll {locks : List ResourceId} (hnodup : locks.Nodup) (hmem : r ∈ locks)
    (h : Bare r m K c) : ManagerSat F i m K r (releaseAll locks) (fun _ => AtRest r) c := by
  induction locks generalizing c with
  | nil => exact absurd hmem (by simp)
  | cons resource locks ih =>
      rw [List.nodup_cons] at hnodup
      by_cases hr : resource = r
      · subst hr
        refine manager_release h.inv h.owns fun d hd => ?_
        have hrest := (Bare.stable hd h).released
        exact (calm_releaseAll hnodup.1).keeps Rest.stable hrest.others hrest
      · have hcalm : Calm r (Managed.release resource : FakeManaged Unit) :=
          ⟨.inl fun ht => hr (Option.some.inj ht), fun _ _ => trivial⟩
        exact hcalm.andThen Bare.stable h.others h fun _ d hd =>
          ih hnodup.2 ((List.mem_cons.mp hmem).resolve_left fun he => hr he.symm) hd

/-- `with_live_record` under assertions that the others keep. -/
lemma sat_withLiveRecord {ref : LiveRef} {f : FakeManaged α} {P : Cell → Prop}
    {Q : α → Cell → Prop} (hP : Stable (outside m) P) (hPrest : ∀ d, P d → Rest r (Others m) d)
    (hQ : ∀ a, Stable (outside m) (Q a)) (hQrest : ∀ a d, Q a d → Rest r (Others m) d)
    (hf : ∀ d, P d → ManagerSat F i m K r f Q d) (hc : P c) :
    ManagerSat F i m K r (withLiveRecord ref f) Q c := by
  refine manager_quiet (hPrest c hc) rfl fun d token hd => ?_
  have hd := hP hd hc
  refine manager_quiet (hPrest d hd) rfl fun e _ he => ?_
  have he := hP he hd
  refine manager_quiet (hPrest e he) rfl fun u _ hu => ?_
  change ManagerSat F i m K r (f >>= _) Q u
  refine manager_bind (hf u (hP hu he)) fun a v hv => ?_
  refine manager_quiet (hQrest a v hv) rfl fun w _ hw => ?_
  have hw := hQ a hw hv
  exact manager_quiet (hQrest a w hw) rfl fun x _ hx => manager_pure (hQ a) (hQ a hx hw)

/-- Others work with live records of their own. -/
lemma calm_withLiveRecord {ref : LiveRef} {f : FakeManaged α} (hf : Calm r f) :
    Calm r (withLiveRecord ref f) := by
  refine Calm.quiet rfl fun _ => Calm.quiet rfl fun _ => Calm.quiet rfl fun _ => ?_
  change Calm r (f >>= _)
  exact hf.bind fun _ => Calm.quiet rfl fun _ => Calm.quiet rfl fun _ => trivial

lemma calm_unregister {resource : ResourceId} (h : resource ≠ r) :
    Calm r (unregisterActive resource : FakeManaged Unit) :=
  ⟨.inl fun ht => h (Option.some.inj ht), fun _ _ =>
    Calm.quiet rfl fun _ => Calm.quiet rfl fun _ => trivial⟩

/-- `unregister_active` of the own lease. -/
lemma Leased.sat_unregister {k : Unit → FakeManaged α} {Q : α → Cell → Prop}
    (h : Leased r m L c) (hk : ∀ d, Ending r m L d → ManagerSat F i m L r (k ()) Q d) :
    ManagerSat F i m L r (unregisterActive r >>= k) Q c := by
  refine manager_unregister h.others (fun L' ha hne => absurd (h.only L' ha) hne)
    fun d e hd he => hk e (Ending.stable he ?_)
  obtain ⟨howns, hinv, ⟨live, hl, hok⟩, -⟩ := Leased.stable hd h
  have hs := d.silent_set d.lock (Function.update d.active m none)
  refine ⟨⟨⟨howns.lock, fun m' hne => ?_⟩, hinv.drift hs.drift, ⟨live, hl, hok.drift hs.drift⟩,
    fun L' ha => absurd ((Function.update_self ..).symm.trans ha) (by simp)⟩,
    Function.update_self ..⟩
  exact (Function.update_of_ne hne _ _).trans (howns.active m' hne)

/-! ## Teardown -/

/-- What an operation on the handle of a lease may rely on, and what it leaves: the lock is held
as long as the handle has a live record on this resource, and until the lease starts to end it is
registered, unless it was given up. -/
structure HandleOn (r : ResourceId) (m : ManagerId) (lease : Lease) (c : Cell) : Prop where
  lock : ∀ state, lease.state = some state → r ∈ state.live.map (·.resource) →
    c.lock = some (m, lease.leaseId)
  registered : ∀ state, lease.state = some state → r ∈ state.live.map (·.resource) →
    state.phase = .active → c.active m = some lease.leaseId ∨ GivenUp lease.leaseId c

/-- Others take away no lock of the manager. -/
lemma Outside.lock_held (h : Outside m c d) (hc : c.lock = some (m, L)) :
    d.lock = some (m, L) := by
  rcases h.lock with hl | ⟨-, m', L', hne, hl, -⟩
  · rw [hl, hc]
  · rw [hc, Option.some.injEq, Prod.mk.injEq] at hl
    exact absurd hl.1.symm hne

lemma HandleOn.stable {lease : Lease} : Stable (outside m) (HandleOn r m lease) :=
  fun h hc => ⟨fun state hs hr => h.lock_held (hc.lock state hs hr), fun state hs hr hphase => by
    rw [h.active]
    exact (hc.registered state hs hr hphase).imp_right (GivenUp.drift h.toDrift)⟩

/-- A step on the live record of `r` that ends its lease. -/
def Ends (r : ResourceId) (m : ManagerId) (L : LeaseId) (F : Faults) (i : SessionId)
    (step : LiveRef → FakeManaged (Except Error Unit)) : Prop :=
  ∀ c, (Leased r m L c → ManagerSat F i m L r (step ⟨L, r⟩) (fun _ => Leased r m L) c) ∧
    (Ending r m L c → ManagerSat F i m L r (step ⟨L, r⟩) (fun _ => Ending r m L) c)

variable {step : LiveRef → FakeManaged (Except Error Unit)} {locks : List ResourceId}

/-- What a teardown step leaves of `r`: the lock is free, or the live record is still there. -/
def StepTorn (r : ResourceId) (m : ManagerId) (L : LeaseId) (answer : Except Error Unit)
    (c : Cell) : Prop :=
  match answer with
  | .ok _ => AtRest r c
  | .error _ => Ending r m L c

lemma StepTorn.stable {answer : Except Error Unit} : Stable (outside m) (StepTorn r m L answer) :=
  fun h hc => by
    cases answer with
    | ok _ => exact Rest.stable h hc
    | error _ => exact Ending.stable h hc

lemma StepTorn.rest {answer : Except Error Unit} (h : StepTorn r m L answer c) : AtRest r c := by
  cases answer with
  | ok _ => exact h
  | error _ => exact Ending.rest h

lemma sat_teardownRecord (hstep : Ends r m L F i step) (hnodup : locks.Nodup) (hmem : r ∈ locks)
    (h : Leased r m L c) :
    ManagerSat F i m L r (teardownRecord step ⟨L, r⟩ locks) (StepTorn r m L) c := by
  refine sat_withLiveRecord Leased.stable (fun _ hd => hd.others) (fun _ => StepTorn.stable)
    (fun _ _ hd => hd.rest.others) (fun d hd => ?_) h
  refine hd.sat_unregister fun e he => ?_
  refine manager_bind ((hstep e).2 he) fun answer u hu => ?_
  match answer with
  | .error error => exact manager_pure StepTorn.stable hu
  | .ok _ =>
      refine manager_bind (sat_releaseAll (hnodup.filter _) ?_ hu.bare) fun _ v hv =>
        manager_pure StepTorn.stable hv
      exact List.mem_filter.mpr ⟨hmem, by simp⟩

lemma calm_teardownRecord {ref : LiveRef} (hstep : Calm r (step ref)) (hne : ref.resource ≠ r) :
    Calm r (teardownRecord step ref locks) := by
  refine calm_withLiveRecord ((calm_unregister hne).bind fun _ => hstep.bind fun answer => ?_)
  match answer with
  | .error error => exact trivial
  | .ok _ =>
      refine Calm.bind (calm_releaseAll fun hmem => hne ?_) fun _ => trivial
      exact (of_decide_eq_true (List.mem_filter.mp hmem).2).symm

lemma calm_teardown {refs : List LiveRef} (hstep : ∀ ref ∈ refs, Calm r (step ref))
    (hne : r ∉ refs.map (·.resource)) : Calm r (teardown step refs locks) := by
  induction refs generalizing locks with
  | nil => trivial
  | cons ref refs ih =>
      rw [List.map_cons, List.mem_cons, not_or] at hne
      have hrest : ∀ locks, Calm r (teardown step refs locks) := fun _ =>
        ih (fun x hx => hstep x (List.mem_cons_of_mem _ hx)) hne.2
      refine (calm_teardownRecord (hstep ref (List.mem_cons_self ..)) fun h => hne.1 h.symm).bind
        fun answer => ?_
      match answer with
      | .ok _ => exact hrest _
      | .error error => exact (hrest _).bind fun _ => trivial

/-- What a teardown leaves of `r`. -/
structure TornOn (r : ResourceId) (m : ManagerId) (L : LeaseId) (result : Teardown) (c : Cell) :
    Prop where
  rest : AtRest r c
  kept : r ∈ result.live.map (·.resource) → c.lock = some (m, L)

lemma TornOn.stable {result : Teardown} : Stable (outside m) (TornOn r m L result) := fun h hc =>
  ⟨Rest.stable h hc.rest, fun hr => h.lock_held (hc.kept hr)⟩

lemma sat_teardown {refs : List LiveRef} (hstep : Ends r m L F i step)
    (hcalm : ∀ ref ∈ refs, ref.resource ≠ r → Calm r (step ref)) (hrefs : Refs L refs)
    (hnodup : locks.Nodup) (hmem : r ∈ locks) (hr : r ∈ refs.map (·.resource))
    (h : Leased r m L c) :
    ManagerSat F i m L r (teardown step refs locks) (TornOn r m L) c := by
  induction refs generalizing c locks with
  | nil => exact absurd hr (by simp)
  | cons ref refs ih =>
      have hnodup' := hrefs.nodup
      rw [List.map_cons, List.nodup_cons] at hnodup'
      obtain ⟨L', r'⟩ := ref
      obtain rfl : L' = L := hrefs.lease _ (List.mem_cons_self ..)
      by_cases hne : r' = r
      · subst hne
        have hrest : ∀ locks, Calm r' (teardown step refs locks) := fun _ =>
          calm_teardown (fun x hx => hcalm x (List.mem_cons_of_mem _ hx) fun he =>
            hnodup'.1 (List.mem_map.mpr ⟨x, hx, he⟩)) hnodup'.1
        refine manager_bind (sat_teardownRecord hstep hnodup hmem h) fun answer d hd => ?_
        match answer with
        | .ok _ =>
            refine (manager_yields ((hrest _).keeps Rest.stable hd.rest.others hd.rest)
              (yields_teardown hnodup'.2)).mono fun result e he => ⟨he.1, fun hr => ?_⟩
            exact absurd ((he.2.records.map _).subset hr) hnodup'.1
        | .error error =>
            refine (hrest _).andThen Ending.stable hd.rest.others hd fun rest e he => ?_
            exact manager_pure TornOn.stable ⟨he.rest, fun _ => he.owns.lock⟩
      · have hr' : r ∈ refs.map (·.resource) := by
          rw [List.map_cons, List.mem_cons] at hr
          exact hr.resolve_left fun he => hne he.symm
        have hcalm' : ∀ x ∈ refs, x.resource ≠ r → Calm r (step x) := fun x hx =>
          hcalm x (List.mem_cons_of_mem _ hx)
        refine (calm_teardownRecord (hcalm _ (List.mem_cons_self ..) hne) hne).andThen
          Leased.stable h.others h fun answer d hd => ?_
        match answer with
        | .ok _ =>
            exact ih hcalm' hrefs.tail (hnodup.filter _)
              (List.mem_filter.mpr ⟨hmem, by simpa using fun he => hne he.symm⟩) hr' hd
        | .error error =>
            refine manager_bind (ih hcalm' hrefs.tail hnodup hmem hr' hd) fun rest e he => ?_
            refine manager_pure TornOn.stable ⟨he.rest, fun hlive => he.kept ?_⟩
            rw [List.map_cons, List.mem_cons] at hlive
            exact hlive.resolve_left fun he => hne he.symm

/-! ## Ending a lease -/

/-- A teardown without an error keeps no record. -/
lemma yields_teardown_live {refs : List LiveRef} : (teardown step refs locks).Yields
    (HandleAnswers i) fun result => result.error = none → result.live = [] := by
  induction refs generalizing locks with
  | nil => exact fun _ => rfl
  | cons ref refs ih =>
      refine Program.Yields.after fun answer => ?_
      match answer with
      | .ok _ => exact ih
      | .error error => exact Program.Yields.after fun rest h => absurd h (by simp)

section Ending

variable {M : FakeManager} {lease : Lease} {state : LiveLease} {caps : Capabilities}

lemma Lease.Wf.refs (h : lease.Wf) (hs : lease.state = some state) :
    Refs lease.leaseId state.live :=
  ⟨(h state hs).lease, (h state hs).distinct⟩

lemma calm_releaseEnforceWatch : Calm r (releaseEnforceWatch M : FakeManaged Unit) := by
  unfold releaseEnforceWatch
  split
  · trivial
  · exact Calm.quiet rfl fun _ => trivial

/-- A teardown step ends the live record of its own resource and leaves the others alone. -/
structure Ended.Step (r : ResourceId) (m : ManagerId) (F : Faults) (i : SessionId) (L : LeaseId)
    (step : LiveRef → FakeManaged (Except Error Unit)) : Prop where
  ends : Ends r m L F i step
  calm : ∀ ref : LiveRef, ref.resource ≠ r → Calm r (step ref)

/-- The teardown of the live records of a lease. -/
lemma sat_teardownState (hstep : Ended.Step r m F i lease.leaseId step) (hwf : lease.Wf)
    (hs : lease.state = some state) (hrest : AtRest r c) (hon : HandleOn r m lease c) :
    ManagerSat F i m lease.leaseId r (teardown step state.live state.locks) (fun result d =>
      TornOn r m lease.leaseId result d ∧ (result.error = none → r ∉ result.locks)) c := by
  have hstate := hwf state hs
  have htorn : ManagerSat F i m lease.leaseId r (teardown step state.live state.locks)
      (TornOn r m lease.leaseId) c := by
    by_cases hr : r ∈ state.live.map (·.resource)
    · exact sat_teardown hstep.ends (fun ref _ => hstep.calm ref) (hwf.refs hs)
        hstate.locks_nodup ((hstate.locked r).mpr hr) hr (hrest.leased (hon.lock state hs hr))
    · have hcalm : Calm r (teardown step state.live state.locks) := by
        refine calm_teardown (fun ref href => hstep.calm ref ?_) hr
        rintro rfl
        exact hr (List.mem_map_of_mem href)
      refine (manager_yields (hcalm.keeps Rest.stable hrest.others hrest)
        (yields_teardown hstate.distinct)).mono fun result d hd => ⟨hd.1, fun hmem => ?_⟩
      exact absurd ((hd.2.records.map _).subset hmem) hr
  refine (manager_yields (manager_yields htorn (yields_teardown hstate.distinct))
    yields_teardown_live).mono fun result d hd => ⟨hd.1.1, fun herror hmem => ?_⟩
  obtain ⟨hheld, hkept⟩ := (hd.1.2.locked r).mp hmem
  have hlive := hkept ((hstate.locked r).mp hheld)
  rw [hd.2 herror] at hlive
  exact absurd hlive (by simp)

/-- What an operation that ends a lease leaves. -/
def LeftBy (r : ResourceId) (m : ManagerId) (lease : Lease) (c : Cell) : Prop :=
  AtRest r c ∧ HandleOn r m lease c

lemma LeftBy.stable : Stable (outside m) (LeftBy r m lease) :=
  Rest.stable.and HandleOn.stable

/-- A lease that is registered, or was given up, and holds the lock. -/
lemma Passed.left (h : Passed r m lease.leaseId c) : LeftBy r m lease c :=
  ⟨h.rest, fun _ _ _ => h.owns.lock, fun _ _ _ _ => h.enrolled.registered⟩

/-- What a teardown that released the watch hands back. -/
lemma sat_handBack {result : Teardown} {phase : LeasePhase} (hphase : phase ≠ .active)
    (h : TornOn r m lease.leaseId result c) (hlocks : result.error = none → r ∉ result.locks) :
    ManagerSat F i m K r (match result.error with
      | none => do
          releaseAll result.locks
          return (.ok (), { lease with state := none })
      | some error =>
          return (.error error, { lease with state := some ⟨result.live, result.locks, phase⟩ }) :
        FakeManaged (Except Error Unit × Lease)) (fun answer => LeftBy r m answer.2) c := by
  cases herror : result.error with
  | none =>
      refine (calm_releaseAll (hlocks herror)).andThen TornOn.stable h.rest.others h fun _ d hd => ?_
      exact manager_pure LeftBy.stable ⟨hd.rest, fun state hs => absurd hs (by simp),
        fun state hs => absurd hs (by simp)⟩
  | some error =>
      refine manager_pure LeftBy.stable ⟨h.rest, fun state hs hr => ?_, fun state hs _ hp => ?_⟩
      · obtain rfl := Option.some.inj hs
        exact h.kept hr
      · obtain rfl := Option.some.inj hs
        exact absurd hp hphase

/-- The end of `restore_state` and `abandon_state`. -/
lemma sat_endTeardown {result : Teardown} {phase : LeasePhase} (hphase : phase ≠ .active)
    (h : TornOn r m lease.leaseId result c) (hlocks : result.error = none → r ∉ result.locks) :
    ManagerSat F i m K r (do
      if state.phase = .active then releaseEnforceWatch M
      match result.error with
      | none =>
          releaseAll result.locks
          return (.ok (), { lease with state := none })
      | some error =>
          return (.error error, { lease with state := some ⟨result.live, result.locks, phase⟩ }) :
        FakeManaged (Except Error Unit × Lease)) (fun answer => LeftBy r m answer.2) c := by
  dsimp only
  split
  · exact calm_releaseEnforceWatch.andThen TornOn.stable h.rest.others h fun _ d hd =>
      sat_handBack hphase hd hlocks
  · exact sat_handBack hphase h hlocks

/-- A step that is a program of the engine. -/
lemma step_engine {p : LiveRef → Engine FakeSnapshotData FakeIdentity (Except Error Unit)}
    (hp : ∀ c live, Holding r L c live c →
      EngineSat F i m r (p ⟨L, r⟩) (fun _ => Ended r L c) c)
    (hon : ∀ ref : LiveRef, EngineOn ref.resource (p ref)) :
    Ended.Step r m F i L fun ref => engine (p ref) where
  ends c := by
    have hends : ∀ {c : Cell}, Leased r m L c → ManagerSat F i m L r (engine (p ⟨L, r⟩))
        (fun _ d => Leased r m L d ∧ d.active = c.active) c := fun {c} h => by
      obtain ⟨live, hl⟩ := h.holding
      refine (manager_engine (hp c live hl) h.owns).mono fun _ d hd => ?_
      refine ⟨⟨hd.2, hd.1.1.inv, hd.1.2, fun L' ha => h.only L' ?_⟩, hd.1.1.active⟩
      exact (congrFun hd.1.1.active m).symm.trans ha
    constructor
    · exact fun h => (hends h).mono fun _ _ hd => hd.1
    · exact fun h => (hends h.toLeased).mono fun _ _ hd =>
        ⟨hd.1, (congrFun hd.2 m).trans h.active⟩
  calm ref hne := .of_away ((hon ref).engine_away hne)

lemma step_restore : Ended.Step r m F i L fun ref =>
    engine (restoreLiveState (fakeBackend caps) ref).run :=
  step_engine (fun _ _ h => sat_restoreLiveState rfl h) fun _ =>
    EngineFor.on (engineFor_restoreLiveState (fakeBackend caps) rfl)

lemma step_abandon : Ended.Step r m F i L (abandonRecord : LiveRef → FakeManaged _) := by
  refine step_engine (p := fun ref => do
    let live ← Engine.liveGet ref
    Engine.journalRemove live.record.leaseId live.record.resource .abandoned)
    (fun c live h => ?_) fun ref => ?_
  · refine sat_liveGet rfl h.inv h.live_eq fun d hd => ?_
    exact sat_removeLive (k := pure) (Holding.stable hd h) (fun hs => absurd hs (by simp))
      fun e answer he _ => sat_pure Ended.stable he
  · exact EngineFor.on (L := ref.lease) (engineFor_liveGet rfl fun live hlive =>
      engineFor_journalRemove _ _ hlive.record.resource)

lemma sat_restoreState (hwf : lease.Wf) (hrest : AtRest r c) (hon : HandleOn r m lease c)
    (hM : M.backend = fakeBackend caps) :
    ManagerSat F i m lease.leaseId r (lease.restoreState M) (fun answer => LeftBy r m answer.2) c := by
  unfold Lease.restoreState
  cases hs : lease.state with
  | none => exact manager_pure LeftBy.stable ⟨hrest, hon⟩
  | some state =>
      rw [hM]
      exact manager_bind (sat_teardownState step_restore hwf hs hrest hon) fun result d hd =>
        sat_endTeardown (by simp) hd.1 hd.2

lemma sat_abandonState (hwf : lease.Wf) (hrest : AtRest r c) (hon : HandleOn r m lease c) :
    ManagerSat F i m lease.leaseId r (lease.abandonState M) (fun answer => LeftBy r m answer.2) c := by
  unfold Lease.abandonState
  cases hs : lease.state with
  | none => exact manager_pure LeftBy.stable ⟨hrest, hon⟩
  | some state =>
      exact manager_bind (sat_teardownState step_abandon hwf hs hrest hon) fun result d hd =>
        sat_endTeardown (by simp) hd.1 hd.2

/-- What `restore` and `abandon` leave: the handle they hand back, if any, still agrees. -/
def HandedBack (r : ResourceId) (m : ManagerId) (answer : Except (Error × Lease) Unit) (c : Cell) :
    Prop :=
  AtRest r c ∧ ∀ error lease, answer = .error (error, lease) → HandleOn r m lease c

lemma HandedBack.stable {answer : Except (Error × Lease) Unit} :
    Stable (outside m) (HandedBack r m answer) := fun h hc =>
  ⟨Rest.stable h hc.1, fun error lease ha => HandleOn.stable h (hc.2 error lease ha)⟩

lemma sat_restore (hwf : lease.Wf) (hM : M.backend = fakeBackend caps) (h : LeftBy r m lease c) :
    ManagerSat F i m lease.leaseId r (lease.restore M) (HandedBack r m) c := by
  refine manager_bind (sat_restoreState hwf h.1 h.2 hM) fun answer d hd => ?_
  match answer with
  | (.ok _, _) => exact manager_pure HandedBack.stable ⟨hd.1, fun _ _ ha => absurd ha (by simp)⟩
  | (.error error, left) =>
      refine manager_pure HandedBack.stable ⟨hd.1, fun _ _ ha => ?_⟩
      obtain ⟨rfl, rfl⟩ := Prod.mk.inj (Except.error.inj ha)
      exact hd.2

lemma sat_abandon (hwf : lease.Wf) (h : LeftBy r m lease c) :
    ManagerSat F i m lease.leaseId r (lease.abandon M) (HandedBack r m) c := by
  refine manager_bind (sat_abandonState hwf h.1 h.2) fun answer d hd => ?_
  match answer with
  | (.ok _, _) => exact manager_pure HandedBack.stable ⟨hd.1, fun _ _ ha => absurd ha (by simp)⟩
  | (.error error, left) =>
      refine manager_pure HandedBack.stable ⟨hd.1, fun _ _ ha => ?_⟩
      obtain ⟨rfl, rfl⟩ := Prod.mk.inj (Except.error.inj ha)
      exact hd.2

end Ending

/-! ## Drop -/

section Drop

variable {M : FakeManager} {lease : Lease} {caps : Capabilities} {phase : LeasePhase}

lemma calm_dropStep {ref : LiveRef} (hM : M.backend = fakeBackend caps) (hne : ref.resource ≠ r) :
    Calm r (withLiveRecord ref (do
      if phase = .abandoning then
        let _ ← abandonRecord ref
      else
        let _ ← engine (restoreLiveState M.backend ref).run
      unregisterActive ref.resource) : FakeManaged Unit) := by
  refine calm_withLiveRecord ?_
  dsimp only
  split
  · exact (step_abandon (m := 0) (F := fun _ => True) (i := 0) (L := 0).calm ref hne).bind
      fun _ => calm_unregister hne
  · rw [hM]
    exact (step_restore (m := 0) (F := fun _ => True) (i := 0) (L := 0).calm ref hne).bind
      fun _ => calm_unregister hne

lemma calm_dropRecords {refs : List LiveRef} (hM : M.backend = fakeBackend caps)
    (hne : r ∉ refs.map (·.resource)) : Calm r (dropRecords M phase refs : FakeManaged Unit) := by
  induction refs with
  | nil => trivial
  | cons ref refs ih =>
      rw [List.map_cons, List.mem_cons, not_or] at hne
      exact Calm.bind (calm_dropStep hM fun h => hne.1 h.symm) fun _ => ih hne.2

lemma sat_dropRecords {refs : List LiveRef} (hM : M.backend = fakeBackend caps)
    (hrefs : Refs L refs) (hr : r ∈ refs.map (·.resource)) (h : Leased r m L c) :
    ManagerSat F i m L r (dropRecords M phase refs) (fun _ => Ending r m L) c := by
  induction refs generalizing c with
  | nil => exact absurd hr (by simp)
  | cons ref refs ih =>
      have hnodup := hrefs.nodup
      rw [List.map_cons, List.nodup_cons] at hnodup
      obtain ⟨L', r'⟩ := ref
      obtain rfl : L' = L := hrefs.lease _ (List.mem_cons_self ..)
      by_cases hne : r' = r
      · subst hne
        refine manager_bind (M := fun _ => Ending r' m L') ?_ fun _ d hd =>
          (calm_dropRecords hM hnodup.1).keeps Ending.stable hd.others hd
        refine sat_withLiveRecord Leased.stable (fun _ hd => hd.others) (fun _ => Ending.stable)
          (fun _ _ hd => hd.others) (fun d hd => ?_) h
        dsimp only
        split
        · refine manager_bind ((step_abandon.ends d).1 hd) fun _ e he => ?_
          exact he.sat_unregister (k := pure) fun u hu => manager_pure Ending.stable hu
        · rw [hM]
          refine manager_bind ((step_restore.ends d).1 hd) fun _ e he => ?_
          exact he.sat_unregister (k := pure) fun u hu => manager_pure Ending.stable hu
      · have hr' : r ∈ refs.map (·.resource) := by
          rw [List.map_cons, List.mem_cons] at hr
          exact hr.resolve_left fun he => hne he.symm
        exact Calm.andThen (calm_dropStep hM hne) Leased.stable h.others h fun _ d hd =>
          ih hrefs.tail hr' hd

lemma sat_drop (hwf : lease.Wf) (hM : M.backend = fakeBackend caps) (h : LeftBy r m lease c) :
    ManagerSat F i m lease.leaseId r (lease.drop M) (fun _ => AtRest r) c := by
  unfold Lease.drop
  cases hs : lease.state with
  | none => exact manager_pure Rest.stable h.1
  | some state =>
      have hstate := hwf state hs
      have hend : ∀ {d : Cell}, AtRest r d → ManagerSat F i m lease.leaseId r
          (if state.phase = .active then releaseEnforceWatch M else pure PUnit.unit) (fun _ => AtRest r)
          d := fun {d} hd => by
        split
        · exact calm_releaseEnforceWatch.keeps Rest.stable hd.others hd
        · exact manager_pure Rest.stable hd
      by_cases hr : r ∈ state.live.map (·.resource)
      · refine manager_bind (sat_dropRecords hM (hwf.refs hs) hr
          (h.1.leased (h.2.lock state hs hr))) fun _ d hd => ?_
        exact manager_bind (sat_releaseAll hstate.locks_nodup ((hstate.locked r).mpr hr) hd.bare)
          fun _ e he => hend he
      · refine (calm_dropRecords hM hr).andThen Rest.stable h.1.others h.1 fun _ d hd => ?_
        exact (calm_releaseAll fun hl => hr ((hstate.locked r).mp hl)).andThen Rest.stable hd.others
          hd fun _ e he => hend he

end Drop

/-! ## Update -/

section Update

variable {M : FakeManager} {lease : Lease} {state : LiveLease} {caps : Capabilities}
variable {plan : NormalizedConfig} {refs : List LiveRef}

/-- The registration of the lease that holds the lock. -/
lemma Rest.passed (h : AtRest r c) (hlock : c.lock = some (m, L)) (ha : c.active m = some K) :
    Passed r m L c := by
  obtain ⟨hlock', hintact⟩ := h.active m K trivial ha
  obtain rfl : L = K := by
    rw [hlock, Option.some.injEq, Prod.mk.injEq] at hlock'
    exact hlock'.2
  exact ⟨h.others.owns hlock, h.inv, h.held m L trivial hlock, .inl ha, hintact⟩

lemma calm_allRegistered : Calm r (allRegistered refs : FakeManaged Bool) := by
  induction refs with
  | nil => trivial
  | cons ref refs ih =>
      refine Calm.quiet rfl fun answer => ?_
      match answer with
      | none => trivial
      | some _ => exact ih

/-- A lease whose live records were all found registered may be updated. -/
lemma sat_allRegistered (h : LeftBy r m lease c)
    (hlock : r ∈ refs.map (·.resource) → c.lock = some (m, lease.leaseId)) :
    ManagerSat F i m K r (allRegistered refs) (fun answer d => LeftBy r m lease d ∧
      (answer = true → r ∈ refs.map (·.resource) → Passed r m lease.leaseId d)) c := by
  have hpost : ∀ (answer : Bool) (refs : List LiveRef), Stable (outside m) fun d =>
      LeftBy r m lease d ∧
        (answer = true → r ∈ refs.map (·.resource) → Passed r m lease.leaseId d) :=
    fun answer refs {s t} hst hs =>
      ⟨LeftBy.stable hst hs.1, fun ha hr => Passed.stable hst (hs.2 ha hr)⟩
  induction refs generalizing c with
  | nil => exact manager_pure (hpost _ _) ⟨h, fun _ hr => absurd hr (by simp)⟩
  | cons ref refs ih =>
      by_cases hne : ref.resource = r
      · subst hne
        refine manager_activeGet h.1.others fun d hd => ?_
        have hld := LeftBy.stable hd h
        cases hactive : d.active m with
        | none => exact manager_pure (hpost _ _) ⟨hld, fun ha => absurd ha (by simp)⟩
        | some L' =>
            have hpassed := hld.1.passed (hd.lock_held (hlock (by simp))) hactive
            have hcalm : Calm ref.resource (allRegistered refs : FakeManaged Bool) :=
              calm_allRegistered
            exact (hcalm.keeps (LeftBy.stable.and Passed.stable) hld.1.others
              ⟨hld, hpassed⟩).mono fun _ _ he => ⟨he.1, fun _ _ => he.2⟩
      · have htail : r ∈ (ref :: refs).map (·.resource) → r ∈ refs.map (·.resource) := fun hr =>
          (List.mem_cons.mp hr).resolve_left fun heq => hne heq.symm
        refine manager_quiet h.1.others rfl fun d answer hd => ?_
        have hld := LeftBy.stable hd h
        match answer with
        | none => exact manager_pure (hpost _ _) ⟨hld, fun ha => absurd ha (by simp)⟩
        | some _ =>
            refine (ih hld fun hr => hd.lock_held (hlock (List.mem_cons_of_mem _ hr))).mono
              fun answer e he => ⟨he.1, fun ha hr => he.2 ha (htail hr)⟩

lemma Passed.holding (h : Passed r m L c) : ∃ live, Holding r L c live c := by
  obtain ⟨live, hl, hok⟩ := h.live
  exact ⟨live, h.inv, hl, hok, .refl c⟩

lemma Passed.others (h : Passed r m L c) : Rest r (Others m) c := h.owns.rest h.inv

/-- A live record of the lease is read. -/
lemma Passed.sat_liveGet {ref : LiveRef} (href : ref.lease = L) (h : Passed r m L c) :
    ManagerSat F i m K r (engine (Engine.liveGet ref))
      (fun live d => Passed r m L d ∧ live.On ref.resource L) c := by
  subst href
  have hpost : ∀ live : FakeLive, Stable (outside m) fun d =>
      Passed r m ref.lease d ∧ live.On ref.resource ref.lease :=
    fun live {s t} hst hs => ⟨Passed.stable hst hs.1, hs.2⟩
  by_cases hne : ref.resource = r
  · subst hne
    obtain ⟨live, hl⟩ := h.holding
    refine manager_liveGet (k := pure) rfl hl h.owns fun d hd hod => ?_
    exact manager_pure (hpost live) ⟨hd.passed hod h.intact h.enrolled, hd.ok.on⟩
  · have ht : (ManagerOp.engine (.liveGet ref) : ManagerOp FakeSnapshotData FakeIdentity).target ≠
        some r := fun ht => hne (Option.some.inj ht)
    refine manager_untouched (k := pure) h.others (fun _ _ _ he => Cell.handler_other he ht)
      fun d e live he _ hlive => ?_
    exact manager_pure (hpost live) ⟨Passed.stable he h, (Cell.handler_elsewhere hlive ht).2.1⟩

/-- The lifetime check of one live record of the lease. -/
lemma Passed.sat_status {live : FakeLive} {resource : ResourceId} (hlive : live.On resource L)
    (h : Passed r m L c) :
    ManagerSat F i m K r (engine (Engine.resourceStatus .forward live.record.identity))
      (fun _ => Passed r m L) c := by
  by_cases hne : resource = r
  · subst hne
    obtain ⟨held, hl⟩ := h.holding
    refine (manager_engine (Osdns.sat_status (k := pure) hlive.record.identity hl.inv
      fun u answer hu => sat_pure Holding.stable (Holding.stable hu hl)) h.owns).mono ?_
    exact fun _ d hd => hd.1.passed hd.2 h.intact h.enrolled
  · have ht : (ManagerOp.engine (.resourceStatus .forward live.record.identity) :
        ManagerOp FakeSnapshotData FakeIdentity).target ≠ some r := fun ht =>
      hne (hlive.record.identity.symm.trans (Option.some.inj ht))
    exact manager_untouched (k := pure) h.others (fun _ _ _ hu => Cell.handler_other hu ht)
      fun u v answer hv _ _ => manager_pure Passed.stable (Passed.stable hv h)

lemma sat_checkIdentities (hrefs : Refs L refs) (h : Passed r m L c) :
    ManagerSat F i m K r (checkIdentities M refs : ManagedResult FakeSnapshotData FakeIdentity _).run
      (fun _ => Passed r m L) c := by
  induction refs generalizing c with
  | nil => exact manager_pure Passed.stable h
  | cons ref refs ih =>
      have href := hrefs.lease ref (List.mem_cons_self ..)
      refine Fallible.sat_value (h.sat_liveGet href) fun live d hd => ?_
      refine Fallible.sat_bind (hd.1.sat_status hd.2) (fun status e he => ?_) fun _ e he =>
        manager_pure Passed.stable he
      match status with
      | .same => exact ih hrefs.tail he
      | .gone => exact manager_pure Passed.stable he
      | .replaced => exact manager_pure Passed.stable he
      | .ambiguous => exact manager_pure Passed.stable he

lemma calm_getTokens (owned : List ResourceId) : Calm r (getTokens owned : FakeManaged _) := by
  induction owned with
  | nil => trivial
  | cons resource owned ih => exact Calm.quiet rfl fun _ => ih.bind fun _ => trivial

lemma calm_lockTokens (tokens : List Token) : Calm r (lockTokens tokens : FakeManaged _) := by
  induction tokens with
  | nil => trivial
  | cons token tokens ih => exact Calm.quiet rfl fun _ => ih

lemma calm_unlockTokens (tokens : List Token) : Calm r (unlockTokens tokens : FakeManaged _) := by
  induction tokens with
  | nil => trivial
  | cons token tokens ih => exact Calm.quiet rfl fun _ => ih

lemma calm_enterSections (refs : List LiveRef) : Calm r (enterSections refs : FakeManaged _) := by
  induction refs with
  | nil => trivial
  | cons ref refs ih => exact Calm.quiet rfl fun _ => ih

lemma calm_leaveSections (refs : List LiveRef) : Calm r (leaveSections refs : FakeManaged _) := by
  induction refs with
  | nil => trivial
  | cons ref refs ih => exact Calm.quiet rfl fun _ => ih

/-- The transaction of an update under the own lock. -/
lemma Passed.sat_transactUpdate (hrefs : Refs L refs) (hr : r ∈ refs.map (·.resource))
    (hfire : ¬ F (.engine (.fire .afterUpdatePrepared))) (h : Passed r m L c) :
    ManagerSat F i m K r (engine (transactUpdate (fakeBackend caps) refs plan).run)
      (fun _ => Passed r m L) c := by
  obtain ⟨live, hl⟩ := h.holding
  refine (manager_engine (Osdns.sat_transactUpdate hrefs h.intact h.inv (.refl c) hfire
    fun _ => ⟨live, hl, rfl⟩) h.owns).mono fun _ d hd => ?_
  obtain ⟨live', hl', -⟩ := hd.1.2.2 hr
  exact hl'.passed hd.2 h.intact h.enrolled

lemma sat_updateLocked {owned : List ResourceId} (hM : M.backend = fakeBackend caps)
    (hrefs : Refs L refs) (hr : r ∈ refs.map (·.resource))
    (hfire : ¬ F (.engine (.fire .afterUpdatePrepared))) (h : Passed r m L c) :
    ManagerSat F i m K r (updateLocked M refs owned plan).run (fun _ => Passed r m L) c := by
  have hkeep : ∀ {β : Type} {p : FakeManaged β} {d : Cell}, Calm r p → Passed r m L d →
      ManagerSat F i m K r p (fun _ => Passed r m L) d :=
    fun hp hd => hp.keeps Passed.stable hd.others hd
  unfold updateLocked
  rw [hM]
  refine Fallible.sat_value (hkeep (calm_getTokens owned) h) fun tokens d hd => ?_
  refine Fallible.sat_value (hkeep (calm_lockTokens tokens) hd) fun _ d hd => ?_
  refine Fallible.sat_value (hkeep (calm_enterSections refs) hd) fun _ d hd => ?_
  refine Fallible.sat_value (hd.sat_transactUpdate hrefs hr hfire) fun result d hd => ?_
  refine Fallible.sat_value (hkeep (calm_leaveSections refs) hd) fun _ d hd => ?_
  refine Fallible.sat_value (hkeep (calm_unlockTokens tokens) hd) fun _ d hd => ?_
  refine Fallible.sat_value (hkeep (Calm.quiet rfl fun _ => trivial) hd) fun _ d hd => ?_
  exact manager_pure Passed.stable hd

/-- `Lease::update` of a lease over `r`. -/
lemma sat_update {config : DnsConfig} (hwf : lease.Wf) (hM : M.backend = fakeBackend caps)
    (hr : r ∈ lease.resources) (hfire : ¬ F (.engine (.fire .afterUpdatePrepared)))
    (h : LeftBy r m lease c) :
    ManagerSat F i m K r (lease.update M config).run (fun _ => LeftBy r m lease) c := by
  have hstop : ∀ {d : Cell} {answer : Except Error Unit}, LeftBy r m lease d →
      ManagerSat F i m K r (.done answer) (fun _ => LeftBy r m lease) d :=
    fun hd => manager_pure LeftBy.stable hd
  refine Fallible.sat_bind (M := fun _ => LeftBy r m lease) (manager_pure LeftBy.stable h)
    (fun plan d hd => ?_)
    fun _ _ => hstop
  refine Fallible.sat_bind (M := fun _ => LeftBy r m lease) (manager_pure LeftBy.stable hd)
    (fun _ d hd => ?_)
    fun _ _ => hstop
  cases hs : lease.state with
  | none => exact hstop hd
  | some state =>
  refine Fallible.sat_value (sat_allRegistered hd (hd.2.lock state hs)) fun registered d hd => ?_
  dsimp only
  split
  · exact hstop hd.1
  · rename_i hopen
    rw [not_or, not_not, Bool.not_eq_false] at hopen
    have hstate := hwf state hs
    have hrefs := hwf.refs hs
    have hmem : r ∈ state.live.map (·.resource) := (hstate.whole hopen.1).symm ▸ hr
    have hpass : ∀ {d : Cell} {answer : Except Error Unit}, Passed r m lease.leaseId d →
        ManagerSat F i m K r (.done answer) (fun _ => LeftBy r m lease) d := fun hd =>
      manager_pure LeftBy.stable hd.left
    refine Fallible.sat_bind (sat_checkIdentities hrefs (hd.2 hopen.2 hmem)) (fun _ d hd => ?_)
      fun _ _ => hpass
    refine Fallible.sat_bind (M := fun _ => Passed r m lease.leaseId)
      (manager_quiet hd.others rfl fun e answer he => manager_pure Passed.stable
        (Passed.stable he hd)) (fun wanted d hd => ?_) fun _ _ => hpass
    split
    · exact hpass hd
    · exact (sat_updateLocked hM hrefs hmem hfire hd).mono fun _ e he => he.left

end Update

end Osdns
