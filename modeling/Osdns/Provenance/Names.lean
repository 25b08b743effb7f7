import Osdns.Serial.Cell
import Osdns.System.Footprint

/-!
# Names in memory and in the journal

Under any policy, what memory and the journal hold for a lease on a resource names that lease and
that resource.  This is what is left of `Provenance/Overwrite.lean` when any snapshot counts as
evidence, and then an Enforce manager, whose reconciler adopts states it only read, follows the
discipline as well.
-/

namespace Osdns

open Interaction
open Interaction.Fallible (ask value attempt IfOk keeps_value keeps_bind)
open Engine

variable {D I α : Type}

/-- Any snapshot may be evidence. -/
def anyOrigin : Origin D := fun _ _ _ => True

/-! ## Reconciliation -/

section Reconciliation

variable {i : LeaseId} {B : Backend D} {ref : LiveRef}

lemma stateFrom_overlayResidue {resume : JournalRecord D I} (h : RecordFrom anyOrigin ref resume)
    (residue : MutationResidue D) : StateFrom anyOrigin ref (overlayResidue resume residue) := by
  cases residue with
  | unchanged => trivial
  | restored identity => trivial
  | pending pending => exact ⟨⟨fun _ _ => trivial, trivial⟩, h⟩

lemma keeps_prepareLive {candidate : JournalRecord D I} (h : RecordFrom anyOrigin ref candidate) :
    (prepareLive ref candidate).run.Keeps (provenance i anyOrigin) fun _ => True := by
  refine keeps_value (keeps_liveGet ref) fun old hold => ?_
  refine keeps_value (keeps_journalWrite h) fun answer _ => ?_
  match answer with
  | .ok _ =>
      have unmutated : LiveFrom anyOrigin ref ⟨candidate, .unmutated⟩ := ⟨h, trivial⟩
      exact keeps_value (keeps_liveSet unmutated) fun _ _ => .done trivial
  | .error error =>
      refine keeps_value (keeps_journalWrite hold.record) fun answer _ => ?_
      match answer with
      | .ok _ => exact .done trivial
      | .error _ =>
          have repair : LiveFrom anyOrigin ref { old with state := .repair old.state } :=
            ⟨hold.record, hold.state⟩
          exact keeps_value (keeps_liveSet repair) fun _ _ => .done trivial

lemma keeps_applyOverlay (hB : B.Guarded) (expected before : PlatformSnapshot D) :
    (applyOverlay B ref expected before : Engine D I _).Keeps (provenance i anyOrigin)
      fun _ => True := by
  refine (keeps_liveGet ref).bind fun live hl => ?_
  have candidate : RecordFrom anyOrigin ref { live.record with
      before := before, phase := .prepared, applied := none } :=
    ⟨hl.record.leaseId, hl.record.resource, hl.record.identity, trivial, fun _ _ => trivial⟩
  refine (keeps_prepareLive candidate).bind fun answer _ => ?_
  match answer with
  | .error _ => exact .done trivial
  | .ok _ =>
  refine (keeps_fire _).bind fun answer _ => ?_
  match answer with
  | .error _ => exact .done trivial
  | .ok _ =>
  refine (keeps_liveGet ref).bind fun live hl => ?_
  have prepared : LiveFrom anyOrigin ref { live with state := .prepared } := ⟨hl.record, trivial⟩
  refine (keeps_liveSet prepared).bind fun _ _ => ?_
  refine (keeps_mutateAndVerify hB ⟨ref.lease, true⟩ trivial).bind fun answer _ => ?_
  match answer with
  | .ok mutation =>
      refine (keeps_commitVerified hB trivial).bind fun answer _ => ?_
      match answer with
      | .error _ => exact .done trivial
      | .ok _ => exact (keeps_fire _).bind fun _ _ => .done trivial
  | .error failure =>
      refine (keeps_liveGet ref).bind fun live hl => ?_
      have left : LiveFrom anyOrigin ref { live with
          state := overlayResidue _ failure.residue } :=
        ⟨hl.record, stateFrom_overlayResidue candidate failure.residue⟩
      exact (keeps_liveSet left).bind fun _ _ => .done trivial

lemma vouches_passReadback (ref : LiveRef) :
    Vouches i anyOrigin (fun _ => True)
      (passReadback ref : Managed D I (Except ReconcileOutcome (PlatformSnapshot D))) := by
  refine (vouches_engine (keeps_readback _ _)).bind fun answer _ => ?_
  match answer with
  | .ok snapshot => exact .done trivial
  | .error error =>
      cases error with
      | resourceGone =>
          refine (vouches_engine (keeps_liveGet ref)).bind fun live _ => ?_
          refine (vouches_engine (keeps_journalRemove _ _ _)).bind fun answer _ => ?_
          match answer with
          | .ok _ => exact (vouches_unregisterActive _).bind fun _ _ => .done trivial
          | .error _ => exact .done trivial
      | _ => exact .done trivial

lemma vouches_defer (resource : ResourceId) (delay : Duration) (failed : Bool)
    {k : Unit → Managed D I α} (hk : Vouches i anyOrigin (fun _ => True) (k ())) :
    Vouches i anyOrigin (fun _ => True) (Managed.defer resource delay failed >>= k) :=
  .call fun _ => ⟨trivial, fun _ _ => ⟨rfl, hk⟩⟩

lemma vouches_reconcileStable (hB : B.Guarded) (ref : LiveRef) (second : PlatformSnapshot D) :
    Vouches i anyOrigin (fun _ => True)
      (reconcileStable B ref second : Managed D I ReconcileOutcome) := by
  have overlay : ∀ expected before : PlatformSnapshot D, Vouches i anyOrigin (fun _ => True)
      (engine (applyOverlay B ref expected before) : Managed D I ReconcileOutcome) :=
    fun expected before => vouches_engine (keeps_applyOverlay hB expected before)
  refine (vouches_engine (keeps_liveGet ref)).bind fun live _ => ?_
  split
  · exact .done trivial
  split
  · split
    · exact .done trivial
    · exact overlay _ _
  split
  · exact vouches_defer _ _ _ (.done trivial)
  split
  · exact overlay _ _
  · refine .call fun _ => ⟨trivial, fun answer _ => ⟨rfl, ?_⟩⟩
    match answer with
    | some cooldown => exact vouches_defer _ _ _ (.done trivial)
    | none => exact overlay _ _

lemma vouches_reconcilePass (hB : B.Guarded) (ref : LiveRef) :
    Vouches i anyOrigin (fun _ => True)
      (reconcilePass B ref : Managed D I ReconcileOutcome) := by
  refine (vouches_engine (keeps_resolveLive hB none)).bind fun resolved _ => ?_
  refine (vouches_engine (keeps_liveGet ref)).bind fun live _ => ?_
  split
  · exact .done trivial
  refine (vouches_passReadback ref).bind fun answer _ => ?_
  cases answer with
  | error outcome => exact .done trivial
  | ok first =>
  refine .call fun _ => ⟨trivial, fun _ _ => ⟨rfl, ?_⟩⟩
  refine (vouches_passReadback ref).bind fun answer _ => ?_
  cases answer with
  | error outcome => exact .done trivial
  | ok second =>
  dsimp only
  split
  · exact .done trivial
  · exact vouches_reconcileStable hB ref second

lemma vouches_reconcileEntry (hB : B.Guarded) (ref : LiveRef) :
    Vouches i anyOrigin (fun _ => True)
      (reconcileEntry B ref : Managed D I ReconcileOutcome) := by
  refine .call fun _ => ⟨trivial, fun generation _ => ⟨rfl, ?_⟩⟩
  refine (vouches_engine (keeps_liveGet ref)).bind fun live _ => ?_
  refine (vouches_engine (keeps_status _ _)).bind fun answer _ => ?_
  cases answer with
  | error error => exact vouches_defer _ _ _ (.done trivial)
  | ok status =>
  cases status with
  | ambiguous => exact vouches_defer _ _ _ (.done trivial)
  | gone | replaced =>
      refine (vouches_engine (keeps_journalRemove _ _ _)).bind fun answer _ => ?_
      cases answer with
      | ok _ =>
          refine (vouches_unregisterActive _).bind fun _ _ => ?_
          exact .call fun _ => ⟨trivial, fun _ _ => ⟨rfl, .done trivial⟩⟩
      | error error => exact vouches_defer _ _ _ (.done trivial)
  | same =>
      refine (vouches_reconcilePass hB ref).bind fun outcome _ => ?_
      cases outcome with
      | identityAmbiguous => exact .done trivial
      | deferred | failed => exact vouches_defer _ _ _ (.done trivial)
      | _ => exact .call fun _ => ⟨trivial, fun _ _ => ⟨rfl, .done trivial⟩⟩

lemma vouches_reconcileResource (hB : B.Guarded) (resource : ResourceId) :
    Vouches i anyOrigin (fun _ => True)
      (reconcileResource B resource : Managed D I ReconcileOutcome) := by
  refine .call fun _ => ⟨trivial, fun answer _ => ⟨rfl, ?_⟩⟩
  match answer with
  | none => exact .call fun _ => ⟨trivial, fun _ _ => ⟨rfl, .done trivial⟩⟩
  | some _ =>
  refine .call fun _ => ⟨trivial, fun token _ => ⟨rfl, ?_⟩⟩
  refine .call fun _ => ⟨trivial, fun _ _ => ⟨rfl, ?_⟩⟩
  refine .call fun _ => ⟨trivial, fun answer _ => ⟨rfl, ?_⟩⟩
  match answer with
  | none =>
      refine .call fun _ => ⟨trivial, fun _ _ => ⟨rfl, ?_⟩⟩
      exact .call fun _ => ⟨trivial, fun _ _ => ⟨rfl, .done trivial⟩⟩
  | some lease =>
      refine .call fun _ => ⟨trivial, fun _ _ => ⟨rfl, ?_⟩⟩
      refine (vouches_reconcileEntry hB ⟨lease, resource⟩).bind fun outcome _ => ?_
      refine .call fun _ => ⟨trivial, fun _ _ => ⟨rfl, ?_⟩⟩
      exact .call fun _ => ⟨trivial, fun _ _ => ⟨rfl, .done trivial⟩⟩

lemma vouches_reconcilePassGated (hB : B.Guarded) (resource : ResourceId) :
    Vouches i anyOrigin (fun _ => True)
      (reconcilePassGated B resource : Managed D I ReconcileOutcome) := by
  refine .call fun _ => ⟨trivial, fun _ _ => ⟨rfl, ?_⟩⟩
  refine Program.Keeps.bind (p := reconcileResource B resource)
    (vouches_reconcileResource hB resource) fun outcome _ => ?_
  exact .call fun _ => ⟨trivial, fun _ _ => ⟨rfl, .done trivial⟩⟩

end Reconciliation

/-- A request that needs no handle, also of an Enforce manager. -/
lemma follows_aloneNames {i : LeaseId} {M : FakeManager} (hB : M.backend.Guarded)
    {request : Request} :
    (request.alone M).Follows (sessionProvenance i anyOrigin) (fun _ _ => True) ∅ := by
  by_cases hr : ∃ r, request = .reconcile r
  · obtain ⟨r, rfl⟩ := hr
    exact (vouches_reconcilePassGated hB r ∅).bind fun _ _ _ => trivial
  · exact follows_aloneEvidence hB fun r h => hr ⟨r, h⟩

/-! ## Worlds -/

lemma RecordFrom.on {K : LeaseId} {r : ResourceId} {P : Origin FakeSnapshotData}
    {record : FakeRecord} (h : RecordFrom P ⟨K, r⟩ record) : record.On r K :=
  ⟨h.leaseId, h.resource, h.identity⟩

lemma StateFrom.on {K : LeaseId} {r : ResourceId} {P : Origin FakeSnapshotData}
    {state : FakeLiveState} (h : StateFrom P ⟨K, r⟩ state) : state.On r K := by
  induction state with
  | compensating pending resume => exact h.2.on
  | repair next ih => exact ih h
  | _ => trivial

lemma LiveFrom.on {K : LeaseId} {r : ResourceId} {P : Origin FakeSnapshotData} {live : FakeLive}
    (h : LiveFrom P ⟨K, r⟩ live) : live.On r K :=
  ⟨h.record.on, h.state.on⟩

/-- What memory and the journal hold names the lease and the resource it is held for. -/
structure Cell.Labelled (r : ResourceId) (c : Cell) : Prop where
  live : ∀ K live, c.live K = some live → LiveFrom anyOrigin ⟨K, r⟩ live
  journal : ∀ K record, c.record K = some record → RecordFrom anyOrigin ⟨K, r⟩ record

section Calls

variable {r : ResourceId} {c d : Cell} {F : Faults} {i : SessionId} {m : ManagerId}
variable {observed : Set ResourceId}

lemma Cell.Labelled.same (h : c.Labelled r) (hlive : d.live = c.live)
    (hjournal : d.journal = c.journal) : d.Labelled r := by
  refine ⟨fun K live hl => h.live K live (hlive ▸ hl), fun K record hr => h.journal K record ?_⟩
  rwa [Cell.record, ← hjournal]

lemma Cell.Labelled.publish (h : c.Labelled r) {record : FakeRecord}
    (hr : RecordFrom anyOrigin ⟨record.leaseId, r⟩ record) {confirmed : LeaseId → Option FakeRecord} :
    ({ c.publish record with confirmed } : Cell).Labelled r := by
  refine ⟨h.live, fun K x hx => ?_⟩
  by_cases hK : K = record.leaseId
  · subst hK
    obtain rfl := Option.some.inj ((AList.lookup_insert c.journal).symm.trans hx)
    exact hr
  · exact h.journal K x ((AList.lookup_insert_ne hK).symm.trans hx)

lemma Cell.Labelled.erase (h : c.Labelled r) {lease : LeaseId}
    {removals : List (LeaseId × Removal)} {confirmed : LeaseId → Option FakeRecord} :
    ({ c with journal := c.journal.erase lease, removals, confirmed } : Cell).Labelled r := by
  refine ⟨h.live, fun K x hx => ?_⟩
  by_cases hK : K = lease
  · subst hK
    exact absurd (hx.symm.trans (AList.lookup_erase K c.journal)) (by simp)
  · exact h.journal K x ((AList.lookup_erase_ne hK).symm.trans hx)

lemma Cell.Labelled.setLive (h : c.Labelled r) {lease : LeaseId} {live : FakeLive}
    (hl : LiveFrom anyOrigin ⟨lease, r⟩ live) :
    ({ c with live := Function.update c.live lease (some live) } : Cell).Labelled r := by
  refine ⟨fun K x hx => ?_, h.journal⟩
  obtain ⟨rfl, hnew⟩ | ⟨-, hold⟩ := update_eq_some hx
  · exact Option.some.inj hnew ▸ hl
  · exact h.live K x hold

namespace World

variable {w w' : World} {o : ManagerOp FakeSnapshotData FakeIdentity}
variable {answer : ManagerRet FakeSnapshotData FakeIdentity o}

def Labelled (w : World) : Prop := ∀ r, (w.cells r).Labelled r

/-- An allowed call keeps the names. -/
lemma Labelled.handled (h : w.Labelled) (ha : (sessionProvenance i anyOrigin).allows observed o)
    (hx : World.handler F i m o w answer w') : w'.Labelled := by
  intro r
  have foot := handler_footprint hx r
  by_cases hset : ∃ ref live, o = .engine (.liveSet ref live) ∧ ref.resource = r
  · obtain ⟨ref, live, rfl, rfl⟩ := hset
    obtain ⟨fate, -, hx⟩ := hx
    rcases exec_cells hx ref.resource with ⟨-, hcell⟩ | ⟨ht, -⟩
    · simp only [Cell.exec, Cell.execEngine, Option.some.injEq, Prod.mk.injEq] at hcell
      rw [← hcell.2]
      exact (h ref.resource).setLive ha
    · exact absurd rfl ht
  by_cases hwrite : ∃ record, o = .engine (.journalWrite record) ∧ record.resource = r
  · obtain ⟨record, rfl, rfl⟩ := hwrite
    obtain ⟨fate, -, hx⟩ := hx
    rcases exec_cells hx record.resource with ⟨-, hcell⟩ | ⟨ht, -⟩
    · cases fate <;>
        simp only [Cell.exec, Cell.execEngine, Cell.journalWrite, Option.some.injEq,
          Prod.mk.injEq] at hcell <;> rw [← hcell.2]
      · exact (h record.resource).publish ha
      · exact (h record.resource).same rfl rfl
      · exact (h record.resource).publish ha
    · exact absurd rfl ht
  by_cases hremove : ∃ K removal, o = .engine (.journalRemove K r removal)
  · obtain ⟨K, removal, rfl⟩ := hremove
    obtain ⟨fate, -, hx⟩ := hx
    rcases exec_cells hx r with ⟨-, hcell⟩ | ⟨ht, -⟩
    · cases fate <;>
        simp only [Cell.exec, Cell.execEngine, Cell.journalRemove, Option.some.injEq,
          Prod.mk.injEq] at hcell <;> rw [← hcell.2]
      · exact (h r).erase
      · exact (h r).same rfl rfl
      · exact (h r).erase
    · exact absurd rfl ht
  · refine (h r).same (foot.live fun ref live ho hr => hset ⟨ref, live, ho, hr⟩)
      (foot.journal (fun record ho hr => hwrite ⟨record, ho, hr⟩) fun K resource removal ho hr => ?_)
    exact hremove ⟨K, removal, hr ▸ ho⟩

lemma Labelled.records (h : w.Labelled) : RecordsFrom anyOrigin w.records := by
  intro record member
  obtain ⟨r, -, listed⟩ := List.mem_flatMap.mp member
  obtain ⟨⟨K, x⟩, entry, rfl⟩ := List.mem_map.mp listed
  have named := (h r).journal K x (AList.mem_lookup_iff.mpr entry)
  obtain rfl : x.leaseId = K := named.leaseId
  obtain rfl : x.resource = r := named.resource
  exact named

lemma Labelled.expected_engine (h : w.Labelled)
    {o : EngineOp FakeSnapshotData FakeIdentity} {answer : EngineRet FakeSnapshotData FakeIdentity o}
    (hx : World.handler F i m (.engine o) w answer w') :
    (provenance i anyOrigin).expects observed o answer ∧ Named o answer := by
  obtain ⟨fate, -, hx⟩ := hx
  cases o with
  | observe resource =>
      suffices hid : ∀ observation, answer = .ok observation →
          observation.identity.resource = resource by
        refine ⟨?_, hid⟩
        match answer with
        | .ok observation => exact ⟨hid observation rfl, trivial⟩
        | .error error => exact trivial
      rcases exec_cells hx resource with ⟨-, hcell⟩ | ⟨ht, -⟩
      · cases fate <;> cases hs : (w.cells resource).snapshot resource <;>
          simp only [Cell.exec, Cell.execEngine, hs, Option.some.injEq, Prod.mk.injEq] at hcell <;>
          rw [← hcell.1] <;> rintro observation ⟨⟩
        rfl
      · exact absurd rfl ht
  | applyGuarded | restoreGuarded => exact ⟨fun _ _ => trivial, trivial⟩
  | journalRecords =>
      cases fate <;> simp only [World.exec, ManagerOp.target, EngineOp.target, World.execGlobal,
        World.readRecords, Option.some.injEq, Prod.mk.injEq] at hx <;> rw [← hx.1]
      · split
        · rename_i hnodup
          have named := h.records
          refine ⟨named, fun records hr => ?_⟩
          obtain rfl := Except.ok.inj hr
          refine ⟨hnodup, fun record hrecord => (named record hrecord).identity⟩
        · exact ⟨trivial, fun _ hr => absurd hr (by simp)⟩
      · exact ⟨trivial, fun _ hr => absurd hr (by simp)⟩
      · exact ⟨trivial, fun _ hr => absurd hr (by simp)⟩
  | newLeaseId =>
      refine ⟨?_, trivial⟩
      cases fate <;> simp only [World.exec, ManagerOp.target, EngineOp.target, World.execGlobal,
        Option.some.injEq, Prod.mk.injEq] at hx <;> exact hx.1.symm
  | liveGet ref =>
      rcases exec_cells hx ref.resource with ⟨-, hcell⟩ | ⟨ht, -⟩
      · simp only [Cell.exec, Cell.execEngine, Option.map_eq_some_iff, Prod.mk.injEq] at hcell
        obtain ⟨live, hlive, rfl, -⟩ := hcell
        have named := (h ref.resource).live ref.lease live hlive
        exact ⟨named, named.on⟩
      · exact absurd rfl ht
  | _ => exact ⟨trivial, trivial⟩

/-- Answers name what they are about. -/
lemma Labelled.expected (h : w.Labelled) (hx : World.handler F i m o w answer w') :
    (sessionProvenance i anyOrigin).expects observed o answer ∧ ManagerNamed o answer := by
  cases o with
  | engine o =>
      have named : (provenance i anyOrigin).expects observed o answer ∧ Named o answer :=
        h.expected_engine hx
      exact named
  | resolveResources scope plan =>
      have nodup : ∀ resources, answer = .ok resources → resources.Nodup := handler_answers hx
      refine ⟨?_, nodup⟩
      match answer with
      | .ok resources => exact nodup resources rfl
      | .error error => exact trivial
  | _ => exact ⟨trivial, trivial⟩

lemma Labelled.environment (h : w.Labelled) (henv : Environment w w') : w'.Labelled := by
  intro r
  obtain ⟨hjournal, -, hlive⟩ := henv.cells r
  exact (h r).same hlive hjournal

end World

end Calls

/-! ## Runs -/

namespace System

variable {S : Setup} {s t : System}

/-- Memory and journal are labelled, and every session keeps them so. -/
structure Labelled (s : System) : Prop where
  world : s.world.Labelled
  sessions : ∀ i session, s.sessions i = some session → ∃ observed,
    session.program.Follows (sessionProvenance i anyOrigin) (fun _ _ => True) observed

namespace Labelled

lemma init (h : Initial s) : s.Labelled := by
  refine ⟨fun r => ?_, fun i session hi => absurd hi (by simp [h.sessions i])⟩
  obtain ⟨state, generation, incarnation, ambiguous, hcell⟩ := h.cells r
  rw [hcell]
  exact ⟨fun K live hl => absurd hl (by simp), fun K record hr => absurd hr (by simp [Cell.record])⟩

lemma spawn (h : s.Labelled) {session : Session}
    (follows : session.program.Follows (sessionProvenance s.next anyOrigin) (fun _ _ => True) ∅) :
    (s.spawn session).Labelled := by
  refine ⟨h.world, fun i a hi => ?_⟩
  obtain ⟨rfl, ha⟩ | ⟨-, hold⟩ := update_eq_some hi
  · obtain rfl := Option.some.inj ha
    exact ⟨∅, follows⟩
  · exact h.sessions i a hold

lemma step (h : s.Labelled) (hst : Step S s t) : t.Labelled := by
  cases hst with
  | start m request claims alone enforced free =>
      exact h.spawn (follows_aloneNames guarded_fakeManager)
  | startOn m request lease id onLease idle free =>
      have hs : Labelled { s with leases := Function.update s.leases id none } :=
        ⟨h.world, h.sessions⟩
      exact hs.spawn (follows_onLeaseEvidence guarded_fakeManager)
  | call i session o k answer w running program claimed answered =>
      obtain ⟨observed, follows⟩ := h.sessions i session running
      rw [program] at follows
      refine ⟨h.world.handled follows.1 answered, fun j a hj => ?_⟩
      obtain ⟨rfl, ha⟩ | ⟨-, hold⟩ := update_eq_some hj
      · obtain rfl := Option.some.inj ha
        exact ⟨_, follows.2 answer (h.world.expected answered).1⟩
      · exact h.sessions j a hold
  | finish i session outcome running program =>
      refine ⟨h.world, fun j a hj => h.sessions j a ?_⟩
      exact ((update_eq_some hj).resolve_left fun hji => by simp at hji).2
  | environment w henv => exact ⟨h.world.environment henv, h.sessions⟩
  | crash m =>
      refine ⟨fun r => (h.world r).same rfl rfl, fun i a hi => h.sessions i a ?_⟩
      exact (Option.filter_eq_some_iff.mp hi).1

/-- Memory and journal are labelled in every run. -/
theorem reachable (h : Reachable S s) : s.Labelled := by
  induction h with
  | init h => exact .init h
  | step _ hst ih => exact ih.step hst

end Labelled

/-- In every run, answers name what they are about. -/
theorem managerNamed_of_reachable (h : Reachable S s) {i : SessionId} {m : ManagerId}
    {o : ManagerOp FakeSnapshotData FakeIdentity}
    {answer : ManagerRet FakeSnapshotData FakeIdentity o} {w : World}
    (answered : World.handler S.faults i m o s.world answer w) : ManagerNamed o answer := by
  have named : (sessionProvenance i anyOrigin).expects ∅ o answer ∧ ManagerNamed o answer :=
    (Labelled.reachable h).world.expected answered
  exact named.2

end System

end Osdns
