import Osdns.Serial.Leases

/-!
# Operations of a manager, on one resource

`apply`, `recover_stale`, `abandon_journal` and a reconciliation pass seen from the cell of one
resource `r`.  The first three take the lock of `r` in the name of their session and release it
again, unless an `apply` leaves a lease behind; a pass works under the lock of the lease it finds
registered.
-/

namespace Osdns

open Interaction
open Interaction.Fallible (ask value attempt)

variable {r : ResourceId} {L K : LeaseId} {c c₀ d : Cell}
variable {F : Faults} {i : SessionId} {m : ManagerId} {caps : Capabilities} {α β : Type}
variable {M : FakeManager} {resources : List ResourceId} {journals : List FakeRecord}

/-! ## The lock of a session -/

/-- The session holds the lock of `r` in its own name, and has left nothing on `r` yet. -/
structure Locked (r : ResourceId) (m : ManagerId) (i : SessionId) (c : Cell) : Prop
    extends Bare r m i c where
  fresh : Fresh i c

lemma Locked.stable : Stable (outside m) (Locked r m i) := fun h hc =>
  ⟨Bare.stable h hc.toBare, hc.fresh.drift h.toDrift⟩

/-- A cell at rest on which the session has left nothing. -/
structure Open (r : ResourceId) (i : SessionId) (c : Cell) : Prop where
  rest : AtRest r c
  fresh : Fresh i c

lemma Open.stable : Stable (outside m) (Open r i) := fun h hc =>
  ⟨Rest.stable h hc.rest, hc.fresh.drift h.toDrift⟩

lemma Open.others (h : Open r i c) : Rest r (Others m) c := h.rest.others

/-- Taking a free lock. -/
lemma Open.locked (h : Open r i c) (hlock : c.lock = none) :
    Locked r m i { c with lock := some (m, i) } := by
  have hs := c.silent_set (some (m, i)) c.active
  refine ⟨⟨h.others.locked hlock i, h.rest.inv.drift hs.drift, ?_⟩, h.fresh.drift hs.drift⟩
  cases ha : c.active m with
  | none => rfl
  | some L =>
      have hl := (h.rest.active m L trivial ha).1
      rw [hlock] at hl
      exact absurd hl (by simp)

/-- Giving the lock back. -/
lemma Locked.released (h : Locked r m i c) : Open r i { c with lock := none } :=
  ⟨h.toBare.released, h.fresh.drift (c.silent_set none c.active).drift⟩

/-! ## Records found in the journal -/

/-- A listing of the journal is still true of `r`. -/
structure Listing (r : ResourceId) (journals : List FakeRecord) (c : Cell) : Prop where
  nodup : (journals.map (·.resource)).Nodup
  identity : ∀ record ∈ journals, record.identity.resource = record.resource
  record : ∀ record ∈ journals, record.resource = r → c.record record.leaseId = some record

lemma Listing.stable : Stable (outside m) (Listing r journals) := fun h hc =>
  ⟨hc.nodup, hc.identity, fun record hx hr => (h.record _).trans (hc.record record hx hr)⟩

lemma Listing.sublist {rest : List FakeRecord} (h : Listing r journals c)
    (hs : rest.Sublist journals) : Listing r rest c :=
  ⟨h.nodup.sublist (hs.map _), fun x hx => h.identity x (hs.subset hx),
    fun x hx => h.record x (hs.subset hx)⟩

/-- A listing without records of `r` is true of every cell. -/
lemma Listing.without (h : Listing r journals c) (hne : ∀ x ∈ journals, x.resource ≠ r) :
    Listing r journals d :=
  ⟨h.nodup, h.identity, fun x hx hr => absurd hr (hne x hx)⟩

/-- The record of `r` is found by a session that holds the lock. -/
lemma Listing.orphan {record : FakeRecord} (h : Listing r journals c) (hmem : record ∈ journals)
    (hr : record.resource = r) (hl : Locked r m i c) : Orphan r record.leaseId record c c := by
  have hrec := h.record record hmem hr
  refine ⟨⟨hl.inv, rfl, rfl⟩, hrec, fun m' hlock => ?_, fun L' _ hf => hf⟩
  rw [hl.owns.lock, Option.some.injEq, Prod.mk.injEq] at hlock
  rw [← hlock.2, hl.fresh.record] at hrec
  exact absurd hrec (by simp)

/-- What recovery leaves to the session that holds the lock. -/
lemma Recovered.locked (h : Recovered r L c d) (hl : Locked r m i c) (hne : i ≠ L)
    (ho : Owns m i d) : Locked r m i d :=
  ⟨⟨ho, h.closed.inv, (congrFun h.closed.active m).trans hl.active⟩, h.fresh i hne hl.fresh⟩

/-- The lease of a record found is not the session's own. -/
lemma Listing.ne {record : FakeRecord} (h : Listing r journals c) (hmem : record ∈ journals)
    (hr : record.resource = r) (hf : Fresh i c) : i ≠ record.leaseId := by
  rintro rfl
  exact absurd (hf.record.symm.trans (h.record record hmem hr)) (by simp)

/-- The journal is listed. -/
lemma sat_journalRecords {P : Cell → Prop} (hP : Stable (outside m) P)
    (hrest : Rest r (Others m) c) (hc : P c) :
    ManagerSat F i m K r (engine Engine.journalRecords) (fun answer d => P d ∧
      ∀ records, answer = .ok records → Listing r records d) c := by
  have ht : (ManagerOp.engine .journalRecords :
      ManagerOp FakeSnapshotData FakeIdentity).target ≠ some r := by
    simp [ManagerOp.target, EngineOp.target]
  refine manager_untouched (k := pure) hrest (fun _ _ _ he => Cell.handler_other he ht)
    fun d e answer he _ ha => ?_
  have hde := (Cell.handler_other ha ht).drift
  obtain ⟨-, hnamed, hrecords⟩ := Cell.handler_elsewhere ha ht
  refine manager_pure (fun h hx => ⟨hP h hx.1, fun records hr => Listing.stable h (hx.2 records hr)⟩)
    ⟨hP he hc, fun records hr => ?_⟩
  obtain ⟨hnodup, hidentity⟩ := hnamed records hr
  exact ⟨hnodup, hidentity, fun record hx hxr =>
    (hde.record _).trans (hrecords records hr record hx hxr)⟩

/-! ## Recovery before an apply -/

/-- Nothing is left of a resource whose first record is removed from a listing. -/
lemma ne_of_mem_eraseP {resource : ResourceId} (hnodup : (journals.map (·.resource)).Nodup)
    {x : FakeRecord} (hx : x ∈ journals.eraseP (·.resource = resource)) : x.resource ≠ resource := by
  induction journals with
  | nil => exact absurd hx (by simp)
  | cons y journals ih =>
      rw [List.map_cons, List.nodup_cons] at hnodup
      by_cases hy : y.resource = resource
      · rw [List.eraseP_cons_of_pos (by simpa using hy)] at hx
        exact fun he => hnodup.1 (hy.trans he.symm ▸ List.mem_map_of_mem hx)
      · rw [List.eraseP_cons_of_neg (by simpa using hy), List.mem_cons] at hx
        rcases hx with rfl | hx
        · exact hy
        · exact ih hnodup.2 hx

lemma calm_recoverForResource {owner : String} {record : FakeRecord} (hne : record.resource ≠ r)
    (hi : record.identity.resource = record.resource) :
    Calm r (engine (recoverForResource (fakeBackend caps) owner record)) :=
  .of_away (EngineOn.engine_away (EngineFor.on (engineFor_recoverForResource (fakeBackend caps)
    ⟨⟨rfl, rfl, hi⟩, rfl⟩)) hne)

lemma calm_recoverResources (hM : M.backend = fakeBackend caps)
    (hj : ∀ x ∈ journals, x.identity.resource = x.resource) (hne : r ∉ resources) :
    Calm r (recoverResources M journals resources : ManagedResult _ _ Unit).run := by
  induction resources generalizing journals with
  | nil => trivial
  | cons resource resources ih =>
      rw [List.mem_cons, not_or] at hne
      unfold recoverResources
      cases hfind : journals.find? (·.resource = resource) with
      | none => exact ih hj hne.2
      | some record =>
          have hmem := List.mem_of_find?_eq_some hfind
          have hres : record.resource = resource := by simpa using List.find?_some hfind
          rw [hM]
          refine Fallible.only_value (calm_recoverForResource (fun h => hne.1 ?_)
            (hj record hmem)) fun answer => ?_
          · exact h.symm.trans hres
          match answer with
          | .ok _ => exact ih (fun x hx => hj x (List.mem_of_mem_eraseP hx)) hne.2
          | .error (.journal error) => trivial
          | .error (.conflict detail) => trivial

/-- Recovery of the records found, under the own lock. -/
lemma sat_recoverResources (hM : M.backend = fakeBackend caps) (hj : Listing r journals c)
    (h : Locked r m i c) :
    ManagerSat F i m i r (recoverResources M journals resources : ManagedResult _ _ Unit).run
      (fun _ => Locked r m i) c := by
  induction resources generalizing journals c with
  | nil => exact manager_pure Locked.stable h
  | cons resource resources ih =>
      unfold recoverResources
      cases hfind : journals.find? (·.resource = resource) with
      | none => exact ih hj h
      | some record =>
          have hmem := List.mem_of_find?_eq_some hfind
          have hres : record.resource = resource := by simpa using List.find?_some hfind
          have hsub := List.eraseP_sublist (p := (·.resource = resource)) (l := journals)
          rw [hM]
          refine Fallible.sat_value (M := fun _ d => Locked r m i d ∧
            Listing r (journals.eraseP (·.resource = resource)) d) ?_ fun answer d hd => ?_
          · by_cases hr : record.resource = r
            · refine (manager_engine (sat_recoverForResource (hj.orphan hmem hr h))
                h.owns).mono fun _ d hd => ?_
              refine ⟨hd.1.locked h (hj.ne hmem hr h.fresh) hd.2, (hj.sublist hsub).without ?_⟩
              exact fun x hx he => ne_of_mem_eraseP hj.nodup hx (he.trans (hr.symm.trans hres))
            · exact (calm_recoverForResource hr (hj.identity record hmem)).keeps
                (Locked.stable.and Listing.stable) h.others ⟨h, hj.sublist hsub⟩
          · match answer with
            | .ok _ => exact ih hd.2 hd.1
            | .error (.journal error) => exact manager_pure Locked.stable hd.1
            | .error (.conflict detail) => exact manager_pure Locked.stable hd.1

/-! ## Observation before an apply -/

/-- An observation names its resource, and that of `r` was taken of `r`. -/
def ObservedOne (r resource : ResourceId)
    (answer : Except Error (BoundObservation FakeSnapshotData FakeIdentity)) (c : Cell) : Prop :=
  ∀ observation, answer = .ok observation → observation.identity.resource = resource ∧
    (resource = r → observation.snapshot.Of r ∧ observation.snapshot.data.generation ≤ c.generation)

lemma sat_observe {resource : ResourceId} (hinv : CellInv r c) :
    EngineSat F i m r (Engine.observe resource)
      (fun answer d => Interference c d ∧ ObservedOne r resource answer d) c := by
  have hpost : ∀ {d : Cell} {answer : Except Error
      (BoundObservation FakeSnapshotData FakeIdentity)}, Interference c d →
      ObservedOne r resource answer d → EngineSat F i m r (pure answer)
        (fun answer d => Interference c d ∧ ObservedOne r resource answer d) d := fun hd ha =>
    sat_pure (fun h hx => ⟨interference.trans hx.1 h, fun observation ho =>
      ⟨(hx.2 observation ho).1, fun hr => ⟨((hx.2 observation ho).2 hr).1,
        ((hx.2 observation ho).2 hr).2.trans h.shift.generation_le⟩⟩⟩) ⟨hd, ha⟩
  intro d hd answer e he
  by_cases hr : resource = r
  · subst hr
    obtain ⟨⟨error, rfl⟩, rfl⟩ | ⟨p, hp, rfl, rfl⟩ := Cell.engineHandler_observe he
    · exact ⟨⟨CellInv.stable hd hinv, .refl ..⟩, hpost hd fun _ h => absurd h (by simp)⟩
    · have hde : Interference d { d with log := .captured i p.data :: d.log } :=
        ⟨⟨rfl, rfl, rfl, rfl, rfl, .refl d⟩, rfl, rfl⟩
      refine ⟨⟨CellInv.stable (interference.trans hd hde) hinv, ⟨?_, ?_, ?_⟩, rfl, rfl⟩,
        hpost (interference.trans hd hde) fun observation ho => ?_⟩
      · exact fun _ _ _ _ _ _ _ _ _ _ hlog => absurd (List.cons.inj hlog).1 (by simp)
      · exact (Accounted.refl i d).release
      · exact fun _ _ hf => hf.drift hde.toDrift
      · obtain rfl := Except.ok.inj ho
        obtain ⟨hof, -, hg⟩ := Cell.snapshot_eq_some hp
        exact ⟨rfl, fun _ => ⟨hof, hg.le⟩⟩
  · have ht : (ManagerOp.engine (.observe resource) :
        ManagerOp FakeSnapshotData FakeIdentity).target ≠ some r := fun h => hr (Option.some.inj h)
    obtain ⟨hed, hnamed, -⟩ := Cell.handler_elsewhere he ht
    have hde : Interference d e := hed ▸ d.interference_pending e.pending
    refine ⟨⟨CellInv.stable (interference.trans hd hde) hinv,
      hed ▸ d.accounted_pending _ e.pending⟩, hpost (interference.trans hd hde) fun o ho => ?_⟩
    exact ⟨hnamed o ho, fun h => absurd h hr⟩

/-- What `observeAll` leaves. -/
def ObservedAll (r : ResourceId) (resources : List ResourceId) (c₀ : Cell)
    (answer : Except Error (List (ResourceId × BoundObservation FakeSnapshotData FakeIdentity)))
    (c : Cell) : Prop :=
  Interference c₀ c ∧ ∀ observations, answer = .ok observations →
    observations.map Prod.fst = resources ∧ Observed r observations c

lemma ObservedAll.stable {answer : Except Error
    (List (ResourceId × BoundObservation FakeSnapshotData FakeIdentity))} :
    Stable interference (ObservedAll r resources c₀ answer) := fun h hc =>
  ⟨interference.trans hc.1 h, fun observations ho =>
    ⟨(hc.2 observations ho).1, Observed.stable h (hc.2 observations ho).2⟩⟩

lemma sat_observeAll (hinv : CellInv r c) :
    EngineSat F i m r (observeAll resources : EngineResult _ _ _).run
      (ObservedAll r resources c) c := by
  induction resources generalizing c with
  | nil =>
      refine sat_pure ObservedAll.stable ⟨interference.refl c, fun observations ho => ?_⟩
      obtain rfl := Except.ok.inj ho
      exact ⟨rfl, fun _ hx => absurd hx (by simp)⟩
  | cons resource resources ih =>
      have hstop : ∀ {d : Cell} {error : Error}, Interference c d → EngineSat F i m r
          (.done (.error error)) (ObservedAll r (resource :: resources) c) d := fun hd =>
        sat_pure ObservedAll.stable ⟨hd, fun _ h => absurd h (by simp)⟩
      refine Fallible.sat_bind (sat_observe hinv) (fun observation d hd => ?_)
        fun _ d hd => hstop hd.1
      obtain ⟨hcd, hone⟩ := hd
      refine sat_fire (CellInv.stable hcd hinv) fun e answer he _ => ?_
      have hce := interference.trans hcd he
      match answer with
      | .error error => exact hstop hce
      | .ok _ =>
      refine Fallible.sat_bind (ih (CellInv.stable hce hinv)) (fun rest u hu => ?_)
        fun _ u hu => hstop (interference.trans hce hu.1)
      obtain ⟨heu, hrest⟩ := hu
      refine sat_pure ObservedAll.stable ⟨interference.trans hce heu, fun observations ho => ?_⟩
      obtain rfl := Except.ok.inj ho
      obtain ⟨hfst, hobs⟩ := hrest rest rfl
      obtain ⟨hidentity, hread⟩ := hone observation rfl
      refine ⟨by rw [List.map_cons, hfst], fun x hx => ?_⟩
      rcases List.mem_cons.mp hx with rfl | hx
      · exact ⟨hidentity, fun hr => ⟨(hread hr).1,
          (hread hr).2.trans (he.shift.trans heu.shift).generation_le⟩⟩
      · exact hobs x hx

/-! ## The locked part of an apply -/

section Apply

variable {plan : NormalizedConfig}

lemma calm_fire {point : TxPoint} : Calm r (engine (Engine.fire point)) :=
  Calm.quiet rfl fun _ => trivial

/-- What the locked part of an apply leaves of one of its resources: a lease that is not
registered yet, or only the lock. -/
def AppliedOn (r : ResourceId) (m : ManagerId) (i : SessionId) (resources : List ResourceId)
    (answer : Except Error PreparedLease) (c : Cell) : Prop :=
  match answer with
  | .ok prepared => prepared.leaseId = i ∧ prepared.resources = resources ∧ Ending r m i c ∧
      Intact i c
  | .error _ => Bare r m i c

lemma Intact.outside (h : Outside m c d) (hc : Intact L c) : Intact L d := fun hmem =>
  hc (h.removals ▸ hmem)

lemma AppliedOn.stable {answer : Except Error PreparedLease} :
    Stable (outside m) (AppliedOn r m i resources answer) := fun h hc => by
  cases answer with
  | ok prepared => exact ⟨hc.1, hc.2.1, Ending.stable h hc.2.2.1, hc.2.2.2.outside h⟩
  | error error => exact Bare.stable h hc

/-- The transaction of an apply, for a resource it has observed. -/
lemma Locked.sat_transact {owner : String}
    {observations : List (ResourceId × BoundObservation FakeSnapshotData FakeIdentity)}
    (h : Locked r m i c) (hfst : observations.map Prod.fst = resources)
    (hobs : Observed r observations c) (hnodup : resources.Nodup) (hr : r ∈ resources) :
    ManagerSat F i m i r
      (engine (transactWithLocks (fakeBackend caps) owner plan observations).run)
      (AppliedOn r m i resources) c := by
  subst hfst
  refine (manager_engine (sat_transactWithLocks h.inv (.refl c) hobs hnodup h.fresh)
    h.owns).mono fun answer d hd => ?_
  obtain ⟨hpost, howns⟩ := hd
  match answer with
  | .ok prepared =>
      obtain ⟨hid, hres, hinv, hframe, hlive⟩ := hpost
      obtain ⟨live, hl⟩ := hlive hr
      have hactive : d.active m = none := (congrFun hframe.active m).trans h.active
      refine ⟨hid, hres, ⟨⟨howns, hinv, ⟨live, hl.live_eq, hl.ok⟩, fun L' ha => ?_⟩, hactive⟩,
        fun hmem => ?_⟩
      · exact absurd (hactive.symm.trans ha) (by simp)
      · exact h.fresh.removals ⟨_, hframe.removals ▸ hmem⟩
  | .error error => exact ⟨howns, hpost.inv, (congrFun hpost.active m).trans h.active⟩

/-- Observing the resources under the own lock. -/
lemma Locked.sat_observeAll (h : Locked r m i c) :
    ManagerSat F i m K r (engine (observeAll resources : EngineResult _ _ _).run)
      (fun answer d => Locked r m i d ∧ ∀ observations, answer = .ok observations →
        observations.map Prod.fst = resources ∧ Observed r observations d) c :=
  (manager_engine (Osdns.sat_observeAll h.inv) h.owns).mono fun _ _ hd =>
    ⟨Locked.stable hd.1.1.outside h, hd.1.2⟩

lemma sat_applyLocked (hM : M.backend = fakeBackend caps) (hnodup : resources.Nodup)
    (hr : r ∈ resources) (h : Locked r m i c) :
    ManagerSat F i m i r (applyLocked M plan resources : ManagedResult _ _ _).run
      (AppliedOn r m i resources) c := by
  have hstop : ∀ {d : Cell} {error : Error}, Locked r m i d →
      ManagerSat F i m i r (.done (.error error)) (AppliedOn r m i resources) d :=
    fun hd => manager_pure AppliedOn.stable hd.toBare
  have hfire : ∀ {d : Cell} {point : TxPoint}, Locked r m i d →
      ManagerSat F i m i r (engine (Engine.fire point)) (fun _ => Locked r m i) d :=
    fun hd => calm_fire.keeps Locked.stable hd.others hd
  unfold applyLocked
  rw [hM]
  refine Fallible.sat_bind (hfire h) (fun _ d hd => ?_) fun _ _ => hstop
  refine Fallible.sat_bind (sat_journalRecords Locked.stable hd.others hd)
    (fun journals d hd => ?_) fun _ _ hd => hstop hd.1
  refine Fallible.sat_bind (sat_recoverResources hM (hd.2 journals rfl) hd.1) (fun _ d hd => ?_)
    fun _ _ => hstop
  refine Fallible.sat_bind (hfire hd) (fun _ d hd => ?_) fun _ _ => hstop
  refine Fallible.sat_bind hd.sat_observeAll (fun observations d hd => ?_)
    fun _ _ hd => hstop hd.1
  obtain ⟨hfst, hobs⟩ := hd.2 observations rfl
  refine Fallible.sat_bind (calm_fire.sat hd.1.others) (fun _ e he => ?_)
    fun _ _ he => hstop (Locked.stable he hd.1)
  exact (Locked.stable he hd.1).sat_transact hfst
    (Observed.stable (he.interference hd.1.owns) hobs) hnodup hr

lemma calm_applyLocked (hM : M.backend = fakeBackend caps) (hne : r ∉ resources) :
    Calm r (applyLocked M plan resources : ManagedResult _ _ _).run := by
  unfold applyLocked
  rw [hM]
  refine Fallible.only_bind calm_fire fun _ => ?_
  refine ⟨.inr rfl, fun answer hanswer => ?_⟩
  match answer with
  | .error error => trivial
  | .ok journals =>
  refine Fallible.only_bind (calm_recoverResources hM (hanswer journals rfl).2 hne) fun _ => ?_
  refine Fallible.only_bind calm_fire fun _ => ?_
  refine Program.Only.seq (Calm.of_away (away_observeAll hne).engine)
    (yields_observeAll.lift fun _ _ h => h) fun answer hanswer => ?_
  match answer with
  | .error error => trivial
  | .ok observations =>
  obtain ⟨hfst, hobs⟩ := hanswer observations rfl
  refine Fallible.only_bind calm_fire fun _ => ?_
  exact Calm.of_away (away_transactWithLocks hobs (hfst ▸ hne)).engine

/-! ## The end of an apply -/

lemma calm_registerAll {refs : List LiveRef} (hne : r ∉ refs.map (·.resource)) :
    Calm r (registerAll refs : FakeManaged Unit) := by
  induction refs with
  | nil => trivial
  | cons ref refs ih =>
      rw [List.map_cons, List.mem_cons, not_or] at hne
      exact ⟨.inl fun ht => hne.1 (Option.some.inj ht).symm, fun _ _ => ih hne.2⟩

/-- A new lease is registered. -/
lemma sat_registerAll {refs : List LiveRef} (hrefs : Refs L refs)
    (hr : r ∈ refs.map (·.resource)) (h : Ending r m L c) (hi : Intact L c) :
    ManagerSat F i m K r (registerAll refs) (fun _ => Passed r m L) c := by
  induction refs generalizing c with
  | nil => exact absurd hr (by simp)
  | cons ref refs ih =>
      have hnodup := hrefs.nodup
      rw [List.map_cons, List.nodup_cons] at hnodup
      obtain ⟨L', r'⟩ := ref
      obtain rfl : L' = L := hrefs.lease _ (List.mem_cons_self ..)
      by_cases hne : r' = r
      · subst hne
        refine manager_activeInsert h.rest.others h.active fun d hd => ?_
        obtain ⟨⟨howns, hinv, ⟨live, hl, hok⟩, -⟩, -⟩ := Ending.stable hd h
        have hs := d.silent_set d.lock (Function.update d.active m (some L'))
        have hintact : Intact L' d := hi.outside hd
        have hpassed : Passed r' m L'
            { d with active := Function.update d.active m (some L') } := by
          refine ⟨⟨howns.lock, fun m' hm => ?_⟩, hinv.drift hs.drift, ⟨live, hl, hok.drift hs.drift⟩,
            .inl (Function.update_self ..), hintact⟩
          exact (Function.update_of_ne hm _ _).trans (howns.active m' hm)
        exact (calm_registerAll hnodup.1).keeps Passed.stable hpassed.others hpassed
      · have hcalm : Calm r (Managed.activeInsert ⟨L', r'⟩ : FakeManaged Unit) :=
          ⟨.inl fun ht => hne (Option.some.inj ht), fun _ _ => trivial⟩
        refine Calm.andThen hcalm (Ending.stable.and fun h hx => Intact.outside h hx) h.rest.others
          ⟨h, hi⟩ fun _ d hd => ih hrefs.tail ?_ hd.1 hd.2
        exact (List.mem_cons.mp hr).resolve_left fun he => hne he.symm

lemma calm_ensureEnforceWatch : Calm r (ensureEnforceWatch M : ManagedResult _ _ Unit).run := by
  unfold ensureEnforceWatch
  split
  · trivial
  · split
    · trivial
    · exact Calm.quiet rfl fun _ => trivial

/-- What an apply leaves: the handle it answers with, if any, holds its locks. -/
def HandedOut (r : ResourceId) (m : ManagerId) (answer : Except Error Lease) (c : Cell) : Prop :=
  AtRest r c ∧ ∀ lease, answer = .ok lease → HandleOn r m lease c

lemma HandedOut.stable {answer : Except Error Lease} : Stable (outside m) (HandedOut r m answer) :=
  fun h hc => ⟨Rest.stable h hc.1, fun lease ha => HandleOn.stable h (hc.2 lease ha)⟩

lemma HandedOut.error {error : Error} (h : AtRest r c) : HandedOut r m (.error error) c :=
  ⟨h, fun _ ha => absurd ha (by simp)⟩

/-- The new lease is restored when its observation cannot start. -/
lemma sat_giveUp {lease : Lease} {error : Error} (hM : M.backend = fakeBackend caps)
    (hwf : lease.Wf) (h : LeftBy r m lease c) :
    ManagerSat F i m lease.leaseId r (do
      match ← value (lease.restore M) with
      | .ok _ => throw error
      | .error (failure, lease) =>
          value (lease.drop M)
          throw (transactionError error [failure]) :
        ManagedResult FakeSnapshotData FakeIdentity Lease).run (HandedOut r m) c := by
  refine Fallible.sat_value (manager_yields (sat_restore hwf hM h) (yields_restore hwf))
    fun answer d hd => ?_
  match answer with
  | .ok _ => exact manager_pure HandedOut.stable (.error hd.1.1)
  | .error (failure, left) =>
      have hleft := hd.2 failure left rfl
      rw [← hleft.leaseId]
      refine Fallible.sat_value (sat_drop hleft.wf hM ⟨hd.1.1, hd.1.2 failure left rfl⟩)
        fun _ e he => ?_
      exact manager_pure HandedOut.stable (.error he)

/-- A new lease over `r` is registered, and one over other resources does not concern `r`. -/
lemma sat_newOwned {prepared : PreparedLease} {lease : Lease} {locks : List ResourceId}
    (hid : prepared.leaseId = i) (hres : prepared.resources = resources)
    (hnodup : resources.Nodup) (hlease : lease = ⟨prepared.leaseId, prepared.resources,
      prepared.wasNoop, some ⟨prepared.resources.map (LiveRef.mk prepared.leaseId), locks,
        .active⟩⟩)
    (hin : r ∈ resources → Ending r m i c ∧ Intact i c) (hout : r ∉ resources → AtRest r c) :
    ManagerSat F i m K r (newOwned prepared locks)
      (fun answer d => answer = lease ∧ LeftBy r m lease d) c := by
  subst hid hres hlease
  have hmap : (prepared.resources.map (LiveRef.mk prepared.leaseId)).map (·.resource) =
      prepared.resources := by simp [Function.comp_def]
  have hdone : ∀ {d : Cell} {answer lease : Lease}, answer = lease → LeftBy r m lease d →
      ManagerSat F prepared.leaseId m K r (.done answer)
        (fun answer d => answer = lease ∧ LeftBy r m lease d) d := fun ha hd =>
    manager_pure (fun hst hx => ⟨hx.1, LeftBy.stable hst hx.2⟩) ⟨ha, hd⟩
  by_cases hr : r ∈ prepared.resources
  · obtain ⟨hend, hi⟩ := hin hr
    refine manager_bind (sat_registerAll ⟨fun ref href => ?_, hmap.symm ▸ hnodup⟩
      (hmap.symm ▸ hr) hend hi) fun _ d hd => hdone rfl hd.left
    obtain ⟨resource, -, rfl⟩ := List.mem_map.mp href
    rfl
  · have hrest := hout hr
    refine (calm_registerAll (hmap.symm ▸ hr)).andThen Rest.stable hrest.others hrest fun _ d hd => ?_
    have hnone : ∀ {state : LiveLease}, some ⟨prepared.resources.map (LiveRef.mk prepared.leaseId),
        locks, LeasePhase.active⟩ = some state → r ∉ state.live.map (·.resource) := fun hs hmem => by
      obtain rfl := Option.some.inj hs
      exact hr (hmap ▸ hmem)
    exact hdone rfl ⟨hd, fun state hs hmem => absurd hmem (hnone hs),
      fun state hs hmem => absurd hmem (hnone hs)⟩

lemma sat_activateLease {prepared : PreparedLease} (hM : M.backend = fakeBackend caps)
    (hid : prepared.leaseId = i) (hres : prepared.resources = resources)
    (hnodup : resources.Nodup) (hin : r ∈ resources → Ending r m i c ∧ Intact i c)
    (hout : r ∉ resources → AtRest r c) :
    ManagerSat F i m i r
      (activateLease M prepared (sortResources resources).dedup : ManagedResult _ _ Lease).run
      (HandedOut r m) c := by
  have hwf := Lease.wf_new hres hnodup
  obtain ⟨lease, hlease⟩ : ∃ lease : Lease, lease = ⟨prepared.leaseId, prepared.resources,
      prepared.wasNoop, some ⟨prepared.resources.map (LiveRef.mk prepared.leaseId),
        (sortResources resources).dedup, .active⟩⟩ := ⟨_, rfl⟩
  rw [← hlease] at hwf
  have hkey : lease.leaseId = i := by rw [hlease, ← hid]
  unfold activateLease
  refine Fallible.sat_value (sat_newOwned hid hres hnodup hlease hin hout) fun answer d hd => ?_
  obtain ⟨rfl, hd⟩ := hd
  refine Fallible.sat_attempt (calm_ensureEnforceWatch.keeps LeftBy.stable hd.1.others hd)
    fun result e he => ?_
  match result with
  | .ok _ =>
      refine Fallible.sat_value (Calm.keeps (Calm.quiet rfl fun _ => trivial) LeftBy.stable
        he.1.others he) fun _ u hu => ?_
      refine manager_pure HandedOut.stable ⟨hu.1, fun left hl => ?_⟩
      obtain rfl := Except.ok.inj hl
      exact hu.2
  | .error error =>
      rw [← hkey]
      exact sat_giveUp hM hwf he

/-! ## The locks of an apply -/

/-- The session holds the lock of `r` if it is among the given ones, and left nothing on `r`. -/
def LocksHeld (r : ResourceId) (m : ManagerId) (i : SessionId) (held : List ResourceId) (c : Cell) :
    Prop :=
  (r ∈ held → Locked r m i c) ∧ (r ∉ held → Open r i c)

lemma LocksHeld.stable {held : List ResourceId} : Stable (outside m) (LocksHeld r m i held) :=
  fun h hc => ⟨fun hr => Locked.stable h (hc.1 hr), fun hr => Open.stable h (hc.2 hr)⟩

lemma LocksHeld.others {held : List ResourceId} (h : LocksHeld r m i held c) :
    Rest r (Others m) c := by
  by_cases hr : r ∈ held
  · exact (h.1 hr).others
  · exact (h.2 hr).others

/-- Giving all locks back. -/
lemma LocksHeld.sat_releaseAll {held : List ResourceId} (hnodup : held.Nodup)
    (h : LocksHeld r m i held c) :
    ManagerSat F i m i r (releaseAll held) (fun _ => AtRest r) c := by
  by_cases hr : r ∈ held
  · exact Osdns.sat_releaseAll hnodup hr (h.1 hr).toBare
  · exact (calm_releaseAll hr).keeps Rest.stable (h.2 hr).others (h.2 hr).rest

/-- What `acquire_all` leaves. -/
def AcquiredAll (r : ResourceId) (m : ManagerId) (i : SessionId)
    (answer : Except Error (List ResourceId)) (c : Cell) : Prop :=
  match answer with
  | .ok locks => LocksHeld r m i locks c
  | .error _ => AtRest r c

lemma AcquiredAll.stable {answer : Except Error (List ResourceId)} :
    Stable (outside m) (AcquiredAll r m i answer) := fun h hc => by
  cases answer with
  | ok locks => exact LocksHeld.stable h hc
  | error error => exact Rest.stable h hc

/-- Acquiring one more lock. -/
lemma LocksHeld.sat_acquire {held : List ResourceId} {resource : ResourceId}
    (h : LocksHeld r m i held c) (hne : resource ∉ held) :
    ManagerSat F i m i r (Managed.acquire resource) (fun answer d => match answer with
      | .ok _ => LocksHeld r m i (held ++ [resource]) d
      | .error _ => LocksHeld r m i held d) c := by
  have hpost : ∀ answer : Except Error Unit, Stable (outside m) fun d => match answer with
      | .ok _ => LocksHeld r m i (held ++ [resource]) d
      | .error _ => LocksHeld r m i held d := fun answer s t hst hs => by
    cases answer with
    | ok _ => exact LocksHeld.stable hst hs
    | error _ => exact LocksHeld.stable hst hs
  by_cases hr : resource = r
  · subst hr
    have hopen := h.2 hne
    refine manager_acquire (k := pure) hopen.others (fun d error hd => ?_) fun d hd hlock => ?_
    · exact manager_pure (hpost (.error error)) (LocksHeld.stable hd h)
    · refine manager_pure (hpost (.ok ())) ⟨fun _ => (Open.stable hd hopen).locked hlock, fun hx => ?_⟩
      exact absurd (by simp) hx
  · have ht : (ManagerOp.acquire resource :
        ManagerOp FakeSnapshotData FakeIdentity).target ≠ some r := fun ht => hr (Option.some.inj ht)
    refine manager_untouched (k := pure) h.others (fun _ _ _ he => Cell.handler_other he ht)
      fun d e answer he _ _ => manager_pure (hpost answer) ?_
    have hmem : r ∈ held ++ [resource] ↔ r ∈ held := by
      simp only [List.mem_append, List.mem_singleton, or_iff_left_iff_imp]
      exact fun he => absurd he.symm hr
    cases answer with
    | ok _ =>
        have hkept := LocksHeld.stable he h
        exact ⟨fun hx => hkept.1 (hmem.mp hx), fun hx => hkept.2 fun hin => hx (hmem.mpr hin)⟩
    | error _ => exact LocksHeld.stable he h

lemma sat_acquireSorted {held rest : List ResourceId} (hnodup : (held ++ rest).Nodup)
    (h : LocksHeld r m i held c) :
    ManagerSat F i m i r (acquireSorted held rest : ManagedResult _ _ _).run
      (AcquiredAll r m i) c := by
  induction rest generalizing held c with
  | nil => exact manager_pure AcquiredAll.stable h
  | cons resource rest ih =>
      have hne : resource ∉ held := fun hmem =>
        (List.nodup_append.mp hnodup).2.2 _ hmem _ (List.mem_cons_self ..) rfl
      refine Fallible.sat_value (h.sat_acquire hne) fun answer d hd => ?_
      match answer with
      | .ok _ => exact ih (by rwa [List.append_assoc]) hd
      | .error error =>
          refine Fallible.sat_value (hd.sat_releaseAll (List.nodup_append.mp hnodup).1)
            fun _ e he => ?_
          exact manager_pure AcquiredAll.stable he

/-- The part of an apply under its locks. -/
lemma sat_applyHeld (hM : M.backend = fakeBackend caps) (hnodup : resources.Nodup)
    (h : LocksHeld r m i (sortResources resources).dedup c) :
    ManagerSat F i m i r (do
      match ← attempt (applyLocked M plan resources) with
      | .ok prepared => activateLease M prepared (sortResources resources).dedup
      | .error error =>
          value (releaseAll (sortResources resources).dedup)
          throw error : ManagedResult FakeSnapshotData FakeIdentity Lease).run (HandedOut r m) c := by
  have hrelease : ∀ {d : Cell} {error : Error}, ManagerSat F i m i r
      (releaseAll (sortResources resources).dedup) (fun _ => AtRest r) d →
      ManagerSat F i m i r (do
        value (releaseAll (sortResources resources).dedup)
        throw error : ManagedResult FakeSnapshotData FakeIdentity Lease).run (HandedOut r m) d :=
    fun hd => Fallible.sat_value hd fun _ e he => manager_pure HandedOut.stable (.error he)
  by_cases hr : r ∈ resources
  · have hheld : r ∈ (sortResources resources).dedup := mem_sortResources.mpr hr
    refine Fallible.sat_attempt (manager_yields (sat_applyLocked hM hnodup hr (h.1 hheld))
      yields_applyLocked) fun answer d hd => ?_
    match answer with
    | .ok prepared =>
        obtain ⟨⟨hid, hres, hend, hi⟩, -⟩ := hd
        exact sat_activateLease hM hid hres hnodup (fun _ => ⟨hend, hi⟩) fun hn => absurd hr hn
    | .error error => exact hrelease (sat_releaseAll (List.nodup_dedup _) hheld hd.1)
  · have hopen := h.2 fun hmem => hr (mem_sortResources.mp hmem)
    refine Fallible.sat_attempt (manager_yields ((calm_applyLocked hM hr).keeps Open.stable
      hopen.others hopen) yields_applyLocked) fun answer d hd => ?_
    match answer with
    | .ok prepared =>
        obtain ⟨hid, hres⟩ := hd.2 prepared rfl
        exact sat_activateLease hM hid hres hnodup (fun hin => absurd hin hr) fun _ => hd.1.rest
    | .error error =>
        exact hrelease ((calm_releaseAll fun hmem => hr (mem_sortResources.mp hmem)).keeps
          Rest.stable hd.1.others hd.1.rest)

/-- `DnsManager::apply`. -/
lemma sat_apply {config : DnsConfig} (hM : M.backend = fakeBackend caps) (h : Open r i c) :
    ManagerSat F i m i r (M.apply config : ManagedResult _ _ Lease).run (HandedOut r m) c := by
  have hstop : ∀ {d : Cell} {error : Error}, Open r i d →
      ManagerSat F i m i r (.done (.error error)) (HandedOut r m) d :=
    fun hd => manager_pure HandedOut.stable (.error hd.rest)
  refine Fallible.sat_bind (M := fun _ => Open r i) (manager_pure Open.stable h)
    (fun plan d hd => ?_) fun _ _ => hstop
  refine Fallible.sat_bind (M := fun _ => Open r i) (manager_pure Open.stable hd)
    (fun _ d hd => ?_) fun _ _ => hstop
  refine Fallible.sat_bind (calm_fire.keeps Open.stable hd.others hd) (fun _ d hd => ?_)
    fun _ _ => hstop
  have hresolve : (Managed.resolveResources config.scope plan :
      FakeManaged (Except Error (List ResourceId))).Yields (HandleAnswers i)
      fun answer => ∀ resources, answer = .ok resources → resources.Nodup := fun _ h => h
  refine Fallible.sat_bind (manager_yields (Calm.keeps (Calm.quiet rfl fun _ => trivial)
    Open.stable hd.others hd) hresolve) (fun resources d hd => ?_) fun _ _ hd => hstop hd.1
  have hnodup := hd.2 resources rfl
  refine Fallible.sat_bind (calm_fire.keeps Open.stable hd.1.others hd.1) (fun _ d hd => ?_)
    fun _ _ => hstop
  have hheld : LocksHeld r m i [] d := ⟨fun hx => absurd hx (by simp), fun _ => hd⟩
  refine Fallible.sat_bind (manager_yields (sat_acquireSorted
      ((List.nil_append _).symm ▸ List.nodup_dedup _) hheld)
      yields_acquireSorted) (fun locks d hd => ?_) fun _ _ hd => ?_
  · obtain rfl := (hd.2 locks rfl).trans (List.nil_append _)
    exact sat_applyHeld hM hnodup hd.1
  · exact manager_pure HandedOut.stable (.error hd.1)

end Apply

/-! ## Stale recovery -/

section Recovery

variable {record : FakeRecord}

/-- The recovery of one record under the lock, which is given back afterwards. -/
lemma Locked.sat_recover (hj : Listing r journals c) (hmem : record ∈ journals)
    (hr : record.resource = r) (h : Locked r m i c) :
    ManagerSat F i m i r (do
      let result ← engine (recoverRecord (fakeBackend caps) record).run
      Managed.release record.resource
      match result with
      | .ok outcome => return outcome
      | .error error => return .failed record.resource record.leaseId error.text :
        FakeManaged RecoveryOutcome) (fun _ => Open r i) c := by
  subst hr
  refine manager_engine_bind (sat_recoverRecord (hj.orphan hmem rfl h)) h.owns
    fun result d hd hod => ?_
  have hlocked := hd.locked h (hj.ne hmem rfl h.fresh) hod
  refine manager_release hlocked.inv hod fun e he => ?_
  have hopen := (Locked.stable he hlocked).released
  cases result with
  | ok outcome => exact manager_pure Open.stable hopen
  | error error => exact manager_pure Open.stable hopen

lemma sat_recoverStaleRecord (hM : M.backend = fakeBackend caps) (hj : Listing r journals c)
    (hmem : record ∈ journals) (hr : record.resource = r) (h : Open r i c) :
    ManagerSat F i m i r (recoverStaleRecord M record) (fun _ => Open r i) c := by
  subst hr
  unfold recoverStaleRecord
  split
  · exact manager_pure Open.stable h
  · rw [hM]
    refine manager_tryAcquire h.others (fun d answer hne hd => ?_) fun d hd hlock => ?_
    · have hopen := Open.stable hd h
      match answer with
      | .ok true => exact absurd rfl hne
      | .ok false => exact manager_pure Open.stable hopen
      | .error error => cases error <;> exact manager_pure Open.stable hopen
    · have hjd : Listing record.resource journals { d with lock := some (m, i) } :=
        ⟨hj.nodup, hj.identity, (Listing.stable hd hj).record⟩
      exact ((Open.stable hd h).locked hlock).sat_recover hjd hmem rfl

lemma calm_recoverStaleRecord (hM : M.backend = fakeBackend caps) (hne : record.resource ≠ r)
    (hi : record.identity.resource = record.resource) : Calm r (recoverStaleRecord M record) := by
  have hrecover : Calm r (engine (recoverRecord (fakeBackend caps) record).run) :=
    .of_away (EngineOn.engine_away (EngineFor.on (engineFor_recoverRecord (fakeBackend caps)
      ⟨⟨rfl, rfl, hi⟩, rfl⟩)) hne)
  unfold recoverStaleRecord
  split
  · trivial
  · rw [hM]
    refine ⟨.inl fun ht => hne (Option.some.inj ht), fun answer _ => ?_⟩
    match answer with
    | .ok true =>
        refine hrecover.bind fun result => ⟨.inl fun ht => hne (Option.some.inj ht), fun _ _ => ?_⟩
        cases result <;> trivial
    | .ok false => trivial
    | .error error => cases error <;> trivial

lemma sat_recoverStaleRecords (hM : M.backend = fakeBackend caps) (hj : Listing r journals c)
    (h : Open r i c) :
    ManagerSat F i m i r (recoverStaleRecords M journals) (fun _ => Open r i) c := by
  induction journals generalizing c with
  | nil => exact manager_pure Open.stable h
  | cons record journals ih =>
      have hnodup := hj.nodup
      rw [List.map_cons, List.nodup_cons] at hnodup
      have htail := hj.sublist (List.sublist_cons_self record journals)
      refine manager_bind (M := fun _ d => Open r i d ∧ Listing r journals d) ?_ fun outcome d hd =>
        manager_bind (ih hd.2 hd.1) fun _ e he => manager_pure Open.stable he
      by_cases hr : record.resource = r
      · refine (sat_recoverStaleRecord hM hj (List.mem_cons_self ..) hr h).mono fun _ d hd => ?_
        exact ⟨hd, htail.without fun x hx he => hnodup.1 (hr.trans he.symm ▸ List.mem_map_of_mem hx)⟩
      · exact (calm_recoverStaleRecord hM hr (hj.identity record (List.mem_cons_self ..))).keeps
          (Open.stable.and Listing.stable) h.others ⟨h, htail⟩

/-- `DnsManager::recover_stale`. -/
lemma sat_recoverStale (hM : M.backend = fakeBackend caps) (h : Open r i c) :
    ManagerSat F i m i r (M.recoverStale : ManagedResult _ _ _).run (fun _ => Open r i) c := by
  refine Fallible.sat_bind (sat_journalRecords Open.stable h.others h) (fun records d hd => ?_)
    fun _ d hd => manager_pure Open.stable hd.1
  exact manager_bind (sat_recoverStaleRecords hM (hd.2 records rfl) hd.1) fun _ _ he =>
    manager_pure Open.stable he

/-! ## Abandoning a record -/

/-- Records of `r` are given up under the lock. -/
lemma sat_abandonRecords (hj : Listing r journals c) (hr : ∀ x ∈ journals, x.resource = r)
    (h : Locked r m i c) :
    ManagerSat F i m i r (abandonRecords r journals) (fun _ => Locked r m i) c := by
  cases journals with
  | nil => exact manager_pure Locked.stable h
  | cons record journals =>
      have hmem : record ∈ record :: journals := List.mem_cons_self ..
      have hnodup := hj.nodup
      rw [List.map_cons, List.nodup_cons] at hnodup
      obtain rfl : journals = [] := List.eq_nil_iff_forall_not_mem.mpr fun x hx =>
        hnodup.1 ((hr record hmem).trans (hr x (List.mem_cons_of_mem _ hx)).symm ▸
          List.mem_map_of_mem hx)
      have horphan := hj.orphan hmem (hr record hmem) h
      refine manager_engine_bind (M := fun _ => Recovered r record.leaseId c) ?_ h.owns
        fun answer d hd hod => ?_
      · have hremove : EngineSat F i m r
            (Engine.journalRemove record.leaseId record.resource .abandoned >>= pure)
            (fun _ => Recovered r record.leaseId c) c :=
          horphan.sat_remove (fun hs => absurd hs (by simp)) fun d answer hd =>
            sat_pure Recovered.stable hd
        rwa [hr record hmem] at hremove
      · have hlocked := hd.locked h (hj.ne hmem (hr record hmem) h.fresh) hod
        match answer with
        | .ok _ => exact manager_pure Locked.stable hlocked
        | .error error => exact manager_pure Locked.stable hlocked

/-- The lock is given back after a result that is passed on. -/
lemma Locked.sat_finish {result : Except Error Unit} (h : Locked r m i c) :
    ManagerSat F i m i r (do
      value (Managed.release r)
      ask (pure result) : ManagedResult FakeSnapshotData FakeIdentity Unit).run
      (fun _ => Open r i) c :=
  manager_release h.inv h.owns fun _ hd => manager_pure Open.stable (Locked.stable hd h).released

/-- `DnsManager::abandon_journal` on this resource. -/
lemma sat_abandonJournal (h : Open r i c) :
    ManagerSat F i m i r (M.abandonJournal r : ManagedResult _ _ _).run (fun _ => Open r i) c := by
  have hpost : ∀ answer : Except Error Unit, Stable (outside m) fun d => match answer with
      | .ok _ => Locked r m i d
      | .error _ => Open r i d := fun answer s t hst hs => by
    cases answer with
    | ok _ => exact Locked.stable hst hs
    | error _ => exact Open.stable hst hs
  refine Fallible.sat_bind (M := fun answer d => match answer with
      | .ok _ => Locked r m i d
      | .error _ => Open r i d) (manager_acquire (k := pure) h.others
        (fun d error hd => manager_pure (hpost (.error error)) (Open.stable hd h))
        fun d hd hlock => manager_pure (hpost (.ok ())) ((Open.stable hd h).locked hlock))
    (fun _ d hd => ?_) fun _ _ hd => manager_pure Open.stable hd
  refine Fallible.sat_value (sat_journalRecords Locked.stable hd.others hd) fun answer d hd => ?_
  match answer with
  | .error error => exact hd.1.sat_finish
  | .ok all =>
      dsimp only
      split
      · exact hd.1.sat_finish
      · refine Fallible.sat_value (sat_abandonRecords ((hd.2 all rfl).sublist
          (List.filter_sublist ..)) (fun x hx => ?_) hd.1) fun _ e he => he.sat_finish
        exact of_decide_eq_true (List.mem_filter.mp hx).2

lemma calm_abandonRecords {resource : ResourceId} (hne : resource ≠ r)
    (records : List FakeRecord) : Calm r (abandonRecords resource records : FakeManaged _) := by
  induction records with
  | nil => trivial
  | cons record records ih =>
      refine ⟨.inl fun ht => hne (Option.some.inj ht), fun answer _ => ?_⟩
      match answer with
      | .ok _ => exact ih
      | .error error => trivial

lemma calm_abandonJournal {resource : ResourceId} (hne : resource ≠ r) :
    Calm r (M.abandonJournal resource : ManagedResult FakeSnapshotData FakeIdentity _).run := by
  have hrelease : ∀ result : Except Error Unit, Calm r (do
      value (Managed.release resource)
      ask (pure result) : ManagedResult FakeSnapshotData FakeIdentity Unit).run := fun result =>
    ⟨.inl fun ht => hne (Option.some.inj ht), fun _ _ => trivial⟩
  refine Fallible.only_bind ⟨.inl fun ht => hne (Option.some.inj ht), fun _ _ => trivial⟩ fun _ => ?_
  refine Fallible.only_value (Calm.quiet rfl fun _ => trivial) fun answer => ?_
  match answer with
  | .error error => exact hrelease _
  | .ok all =>
      dsimp only
      split
      · exact hrelease _
      · exact Fallible.only_value (calm_abandonRecords hne _) hrelease

end Recovery

/-! ## Reconciliation -/

section Reconciliation

variable {ref : LiveRef}

lemma calm_on {r' : ResourceId} {p : Engine FakeSnapshotData FakeIdentity α} (hp : EngineOn r' p)
    (hne : r' ≠ r) : Calm r (engine p) :=
  .of_away (hp.engine_away hne)

lemma calm_liveGet {k : FakeLive → FakeManaged α} (hne : ref.resource ≠ r)
    (hk : ∀ live : FakeLive, live.On ref.resource ref.lease → Calm r (k live)) :
    Calm r (engine (Engine.liveGet ref) >>= k) :=
  ⟨.inl fun ht => hne (Option.some.inj ht), fun live hlive => hk live hlive⟩

lemma calm_passReadback (hne : ref.resource ≠ r) : Calm r (passReadback ref : FakeManaged _) := by
  refine (calm_on (engineOn_readback .forward) hne).bind fun answer => ?_
  match answer with
  | .ok snapshot => trivial
  | .error error =>
      cases error with
      | resourceGone backend resource message =>
          refine calm_liveGet hne fun live _ => ?_
          refine (calm_on (engineOn_journalRemove ..) hne).bind fun answer => ?_
          match answer with
          | .ok _ => exact (calm_unregister hne).bind fun _ => trivial
          | .error error => trivial
      | _ => trivial

lemma calm_applyOverlay {expected before : FakeSnapshot} (hne : ref.resource ≠ r) :
    Calm r (engine (applyOverlay (fakeBackend caps) ref expected before)) :=
  calm_on (EngineFor.on (engineFor_applyOverlay (fakeBackend caps) rfl)) hne

lemma calm_reconcileStable {second : FakeSnapshot} (hne : ref.resource ≠ r) :
    Calm r (reconcileStable (fakeBackend caps) ref second) := by
  refine calm_liveGet hne fun live _ => ?_
  split
  · trivial
  split
  · split
    · trivial
    · exact calm_applyOverlay hne
  split
  · exact Calm.quiet rfl fun _ => trivial
  split
  · exact calm_applyOverlay hne
  refine Calm.quiet rfl fun answer => ?_
  match answer with
  | some cooldown => exact Calm.quiet rfl fun _ => trivial
  | none => exact calm_applyOverlay hne

lemma calm_reconcilePass (hne : ref.resource ≠ r) :
    Calm r (reconcilePass (fakeBackend caps) ref) := by
  refine (calm_on (EngineFor.on (engineFor_resolveLive (fakeBackend caps) rfl)) hne).bind
    fun resolved => calm_liveGet hne fun live _ => ?_
  split
  · trivial
  refine (calm_passReadback hne).bind fun answer => ?_
  match answer with
  | .error outcome => trivial
  | .ok first =>
      refine Calm.quiet rfl fun _ => (calm_passReadback hne).bind fun answer => ?_
      match answer with
      | .error outcome => trivial
      | .ok second =>
          dsimp only
          split
          · trivial
          · exact calm_reconcileStable hne

lemma calm_lifetimeEnded {live : FakeLive} (hne : ref.resource ≠ r) : Calm r (do
    match ← engine (Engine.journalRemove live.record.leaseId ref.resource .lifetime) with
    | .ok _ =>
        unregisterActive ref.resource
        Managed.reconcilerRemove ref.resource
        return .noActiveLease
    | .error _ =>
        Managed.defer ref.resource errorRetry true
        return .failed : FakeManaged ReconcileOutcome) := by
  refine (calm_on (engineOn_journalRemove ..) hne).bind fun answer => ?_
  cases answer with
  | ok _ => exact (calm_unregister hne).bind fun _ => Calm.quiet rfl fun _ => trivial
  | error error => exact Calm.quiet rfl fun _ => trivial

lemma calm_reconcileEntry (hne : ref.resource ≠ r) :
    Calm r (reconcileEntry (fakeBackend caps) ref) := by
  refine Calm.quiet rfl fun generation => calm_liveGet hne fun live hlive => ?_
  have hidentity : live.record.identity.resource = ref.resource := hlive.record.identity
  refine ⟨.inl fun ht => hne (hidentity.symm.trans (Option.some.inj ht)), fun answer _ => ?_⟩
  match answer with
  | .error error => exact Calm.quiet rfl fun _ => trivial
  | .ok .ambiguous => exact Calm.quiet rfl fun _ => trivial
  | .ok .gone => exact calm_lifetimeEnded hne
  | .ok .replaced => exact calm_lifetimeEnded hne
  | .ok .same =>
      refine (calm_reconcilePass hne).bind fun outcome => ?_
      cases outcome with
      | identityAmbiguous => trivial
      | _ => exact Calm.quiet rfl fun _ => trivial

lemma calm_reconcileResource {resource : ResourceId} (hne : resource ≠ r) :
    Calm r (reconcileResource (fakeBackend caps) resource) := by
  refine Calm.quiet rfl fun answer => ?_
  match answer with
  | none => exact Calm.quiet rfl fun _ => trivial
  | some _ =>
      refine Calm.quiet rfl fun token => Calm.quiet rfl fun _ => Calm.quiet rfl fun answer => ?_
      match answer with
      | none => exact Calm.quiet rfl fun _ => Calm.quiet rfl fun _ => trivial
      | some lease =>
          refine Calm.quiet rfl fun _ => (calm_reconcileEntry (by exact hne)).bind fun _ => ?_
          exact Calm.quiet rfl fun _ => Calm.quiet rfl fun _ => trivial

lemma calm_reconcilePassGated {resource : ResourceId} (hne : resource ≠ r) :
    Calm r (reconcilePassGated (fakeBackend caps) resource) :=
  Calm.quiet rfl fun _ => (calm_reconcileResource hne).bind fun _ => Calm.quiet rfl fun _ => trivial

/-- A registered lease is ready for a pass. -/
lemma Rest.registered (h : AtRest r c) (ha : c.active m = some L) :
    (∃ live, Holding r L c live c) ∧ Owns m L c ∧ Intact L c ∧ Enrolled m L c := by
  obtain ⟨hlock, hintact⟩ := h.active m L trivial ha
  have hleased := h.leased hlock
  exact ⟨hleased.holding, hleased.owns, hintact, .inl ha⟩

/-- A quiet call over a cell at rest. -/
lemma Rest.quiet {o : ManagerOp FakeSnapshotData FakeIdentity}
    {k : ManagerRet FakeSnapshotData FakeIdentity o → FakeManaged α} {Q : α → Cell → Prop}
    (h : AtRest r c) (ho : o.isQuiet = true)
    (hk : ∀ d answer, AtRest r d → ManagerSat F i m K r (k answer) Q d) :
    ManagerSat F i m K r (.call o k) Q c :=
  manager_quiet h.others ho fun d answer hd => hk d answer (Rest.stable hd h)

lemma Rest.done {a : α} (h : AtRest r c) :
    ManagerSat F i m K r (.done a) (fun _ => AtRest r) c :=
  manager_pure Rest.stable h

/-- A pass over the lease that is registered. -/
lemma sat_reconcileRegistered {token : Token} (h : AtRest r c) (ha : c.active m = some L) :
    ManagerSat F i m K r (do
      Managed.enterSection ⟨L, r⟩
      let outcome ← reconcileEntry (fakeBackend caps) ⟨L, r⟩
      Managed.leaveSection ⟨L, r⟩
      Managed.tokenUnlock token
      return outcome : FakeManaged ReconcileOutcome) (fun _ => AtRest r) c := by
  refine manager_quiet h.others rfl fun d _ hd => ?_
  obtain ⟨⟨live, hl⟩, howns, hi, hon⟩ := (Rest.stable hd h).registered (hd.active.trans ha)
  change ManagerSat F i m K r (reconcileEntry (fakeBackend caps) ⟨L, r⟩ >>= _) _ d
  refine manager_bind (sat_reconcileEntry hl howns hi hon) fun outcome e he => ?_
  exact he.rest.quiet rfl fun _ _ hu => hu.quiet rfl fun _ _ hv => hv.done

lemma sat_reconcileResource (h : AtRest r c) :
    ManagerSat F i m K r (reconcileResource (fakeBackend caps) r) (fun _ => AtRest r) c := by
  refine h.quiet rfl fun c answer h => ?_
  match answer with
  | none => exact h.quiet rfl fun _ _ hd => hd.done
  | some _ =>
      refine h.quiet rfl fun c token h => h.quiet rfl fun c _ h => ?_
      refine manager_activeGet h.others fun d hd => ?_
      have hrest := Rest.stable hd h
      cases ha : d.active m with
      | none => exact hrest.quiet rfl fun _ _ he => he.quiet rfl fun _ _ hu => hu.done
      | some lease => exact sat_reconcileRegistered hrest ha

/-- A pass on this resource. -/
lemma sat_reconcilePassGated (h : AtRest r c) :
    ManagerSat F i m K r (reconcilePassGated (fakeBackend caps) r) (fun _ => AtRest r) c := by
  refine h.quiet rfl fun d _ h => ?_
  change ManagerSat F i m K r (reconcileResource (fakeBackend caps) r >>= _) _ d
  exact manager_bind (sat_reconcileResource h) fun _ _ hd => hd.quiet rfl fun _ _ he => he.done

end Reconciliation

/-! ## Requests -/

section Requests

variable {request : Request} {lease : Lease}

/-- What a session leaves: the cell is at rest and the handle it hands back holds its lock. -/
def Finished (r : ResourceId) (m : ManagerId) (outcome : Outcome) (c : Cell) : Prop :=
  AtRest r c ∧ ∀ lease, outcome.handle = some lease → HandleOn r m lease c

lemma Finished.stable {outcome : Outcome} : Stable (outside m) (Finished r m outcome) :=
  fun h hc => ⟨Rest.stable h hc.1, fun lease hl => HandleOn.stable h (hc.2 lease hl)⟩

lemma Finished.without {outcome : Outcome} (h : AtRest r c) (hn : outcome.handle = none) :
    ManagerSat F i m K r (.done outcome) (Finished r m) c :=
  manager_pure Finished.stable ⟨h, fun _ hl => absurd (hn.symm.trans hl) (by simp)⟩

/-- The operations that need no handle. -/
lemma sat_alone (hM : M.backend = fakeBackend caps) (h : Open r i c) :
    ManagerSat F i m i r (request.alone M) (Finished r m) c := by
  cases request with
  | apply config =>
      refine manager_bind (sat_apply hM h) fun answer d hd => ?_
      match answer with
      | .error error => exact Finished.without hd.1 rfl
      | .ok lease =>
          refine manager_pure Finished.stable ⟨hd.1, fun _ hl => ?_⟩
          exact hd.2 _ (congrArg Except.ok (Option.some.inj hl))
  | reconcile resource =>
      refine manager_bind (M := fun _ => AtRest r) ?_ fun _ d hd => Finished.without hd rfl
      rw [hM]
      by_cases hr : resource = r
      · exact hr ▸ sat_reconcilePassGated (hr ▸ h.rest)
      · exact (calm_reconcilePassGated hr).keeps Rest.stable h.others h.rest
  | recoverStale =>
      exact manager_bind (sat_recoverStale hM h) fun _ d hd => Finished.without hd.rest rfl
  | abandonJournal resource =>
      refine manager_bind (M := fun _ => Open r i) ?_ fun _ d hd => Finished.without hd.rest rfl
      by_cases hr : resource = r
      · exact hr ▸ sat_abandonJournal (hr ▸ h)
      · exact (calm_abandonJournal hr).keeps Open.stable h.others h
  | update | restore | abandon | drop => exact Finished.without h.rest rfl

lemma sat_handedBack {answer : Except (Error × Lease) Unit} (h : HandedBack r m answer c) :
    ManagerSat F i m K r (.done (.ended answer)) (Finished r m) c := by
  refine manager_pure Finished.stable ⟨h.1, fun left hl => ?_⟩
  match answer with
  | .ok _ => exact absurd hl (by simp [Outcome.handle])
  | .error (error, left') =>
      obtain rfl := Option.some.inj hl
      exact h.2 error left' rfl

/-- The operations on the handle of a lease over `r`. -/
lemma sat_onLease (hM : M.backend = fakeBackend caps) (hwf : lease.Wf) (hr : r ∈ lease.resources)
    (hfire : ¬ F (.engine (.fire .afterUpdatePrepared))) (h : LeftBy r m lease c) :
    ManagerSat F i m lease.leaseId r (request.onLease M lease) (Finished r m) c := by
  cases request with
  | update _ config =>
      refine manager_bind (sat_update hwf hM hr hfire h) fun answer d hd => ?_
      refine manager_pure Finished.stable ⟨hd.1, fun _ hl => ?_⟩
      obtain rfl := Option.some.inj hl
      exact hd.2
  | restore _ => exact manager_bind (sat_restore hwf hM h) fun _ _ hd => sat_handedBack hd
  | abandon _ => exact manager_bind (sat_abandon hwf h) fun _ _ hd => sat_handedBack hd
  | drop _ => exact manager_bind (sat_drop hwf hM h) fun _ _ hd => Finished.without hd rfl
  | apply | reconcile | recoverStale | abandonJournal => exact Finished.without h.1 rfl

/-! ## Requests that do not concern the resource -/

/-- Answers to calls that are not about `r`. -/
def AnswersAway (r : ResourceId) (i : SessionId) (o : ManagerOp FakeSnapshotData FakeIdentity)
    (answer : ManagerRet FakeSnapshotData FakeIdentity o) : Prop :=
  HandleAnswers i o answer ∧ o.target ≠ some r

/-- The handle that is handed back, if any, has no live record on `r`. -/
def Outcome.Without (r : ResourceId) (outcome : Outcome) : Prop :=
  ∀ lease state, outcome.handle = some lease → lease.state = some state →
    r ∉ state.live.map (·.resource)

lemma Outcome.Without.of_none {outcome : Outcome} (h : outcome.handle = none) :
    outcome.Without r :=
  fun _ _ hl => absurd (h.symm.trans hl) (by simp)

/-- Locks that were acquired without a call on `r` are not of `r`. -/
lemma yields_acquireSorted_away {held rest : List ResourceId} :
    (acquireSorted held rest : ManagedResult _ _ _).run.Yields (AnswersAway r i) fun answer =>
      ∀ locks, answer = .ok locks → r ∉ rest := by
  induction rest generalizing held with
  | nil => exact fun _ _ => by simp
  | cons resource rest ih =>
      intro answer ha
      have hne : resource ≠ r := fun h => ha.2 (congrArg some h)
      match answer with
      | .ok _ =>
          refine ih.mono (fun _ _ h => h) fun answer h locks hl hmem => h locks hl ?_
          exact (List.mem_cons.mp hmem).resolve_left fun he => hne he.symm
      | .error error => exact Fallible.yields_ignore fun _ _ h => absurd h (by simp)

lemma yields_apply_away {config : DnsConfig} :
    (M.apply config : ManagedResult _ _ Lease).run.Yields (AnswersAway r i) fun answer =>
      ∀ lease state, answer = .ok lease → lease.state = some state →
        r ∉ state.live.map (·.resource) := by
  have herror : ∀ error : Error, ∀ (lease : Lease) (state : LiveLease),
      Except.error error = .ok lease → lease.state = some state →
        r ∉ state.live.map (·.resource) := fun _ _ _ h => absurd h (by simp)
  refine Fallible.yields_after (fun plan => Fallible.yields_after (fun _ =>
    Fallible.yields_after (fun _ => ?_) herror) herror) herror
  refine Fallible.yields_after (fun resources => ?_) herror
  refine Fallible.yields_after (fun _ => ?_) herror
  refine Fallible.yields_bind yields_acquireSorted_away (fun locks hlocks => ?_) herror
  refine Fallible.yields_value (yields_applyLocked.mono (fun _ _ h => h.1) fun _ h => h)
    fun answer hprepared => ?_
  match answer with
  | .error error => exact Fallible.yields_ignore fun _ => herror error
  | .ok prepared =>
      obtain ⟨-, hres⟩ := hprepared prepared rfl
      refine yields_activateLease.mono (fun _ _ h => h.1) fun answer h lease state ha hs => ?_
      obtain rfl := h lease ha
      obtain rfl := Option.some.inj hs
      simp only [List.map_map, Function.comp_def, List.map_id', hres]
      exact fun hmem => hlocks (mem_sortResources.mpr hmem)

lemma yields_alone_away :
    (request.alone M).Yields (AnswersAway r i) (Outcome.Without r) := by
  cases request with
  | apply config =>
      refine Program.Yields.bind yields_apply_away fun answer h => ?_
      match answer with
      | .ok lease =>
          intro lease' state hl hs
          obtain rfl := Option.some.inj hl
          exact h lease state rfl hs
      | .error error => exact .of_none rfl
  | reconcile resource => exact Program.Yields.after fun _ => .of_none rfl
  | recoverStale => exact Program.Yields.after fun _ => .of_none rfl
  | abandonJournal resource => exact Program.Yields.after fun _ => .of_none rfl
  | update | restore | abandon | drop => exact .of_none rfl

/-- An operation on a handle hands back no resource that the handle does not have. -/
lemma yields_onLease_away (hwf : lease.Wf) (hr : r ∉ lease.resources) :
    (request.onLease M lease).Yields (AnswersAway r i) (Outcome.Without r) := by
  have hending : ∀ {outcome : Outcome} {left : Lease}, outcome.handle = some left →
      lease.Ending left → outcome.Without r := fun hh hl lease' state hlease hs hmem => by
    obtain rfl := Option.some.inj (hh.symm.trans hlease)
    exact hr (hl.resources ▸ (hl.wf state hs).owned r hmem)
  cases request with
  | update _ config =>
      refine Program.Yields.after fun _ lease' state hl hs hmem => ?_
      obtain rfl := Option.some.inj hl
      exact hr ((hwf state hs).owned r hmem)
  | restore _ =>
      refine ((yields_restore hwf).mono (fun _ _ h => h.1) fun _ h => h).bind fun answer h => ?_
      match answer with
      | .ok _ => exact .of_none rfl
      | .error (error, lease') => exact hending rfl (h error lease' rfl)
  | abandon _ =>
      refine ((yields_abandon hwf).mono (fun _ _ h => h.1) fun _ h => h).bind fun answer h => ?_
      match answer with
      | .ok _ => exact .of_none rfl
      | .error (error, lease') => exact hending rfl (h error lease' rfl)
  | drop _ => exact Program.Yields.after fun _ => .of_none rfl
  | apply | reconcile | recoverStale | abandonJournal => exact .of_none rfl

end Requests

end Osdns
