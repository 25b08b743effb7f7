import Osdns.Model.System
import Osdns.Provenance.Evidence

/-!
# Evidence in the operations of a manager

Every operation of a Cooperative manager follows the discipline of `Provenance/Evidence.lean`: the
calls it makes besides those of the engine neither present nor carry evidence.
-/

namespace Osdns

open Interaction
open Interaction.Fallible (ask value attempt IfOk ifOk_ok ifOk_error keeps_value keeps_bind
  follows_value follows_bind)

variable {D I α : Type} {i : LeaseId} {P : Origin D} {M : Manager D}

/-- The discipline of a manager's session. -/
def sessionProvenance (i : LeaseId) (P : Origin D) :
    Discipline (ManagerRet D I) (Set ResourceId) where
  allows observed
    | .engine o => (provenance i P).allows observed o
    | _ => True
  expects observed o answer :=
    match o, answer with
    | .engine o, answer => (provenance i P).expects observed o answer
    | .resolveResources _ _, .ok resources => resources.Nodup
    | _, _ => True
  next observed o answer :=
    match o, answer with
    | .engine o, answer => (provenance i P).next observed o answer
    | _, _ => observed

/-- The program presents and stores evidence of `P` only, and observes nothing. -/
abbrev Vouches (i : LeaseId) (P : Origin D) (φ : α → Prop) (p : Managed D I α) : Prop :=
  p.Keeps (sessionProvenance i P) φ

lemma follows_engineCalls {Q : α → Set ResourceId → Prop} {p : Engine D I α}
    {observed : Set ResourceId} (h : p.Follows (provenance i P) Q observed) :
    (engine p).Follows (sessionProvenance i P) Q observed :=
  h.lift fun _ _ ho => ⟨ho, fun _ hr => ⟨hr, rfl⟩⟩

lemma vouches_engine {φ : α → Prop} {p : Engine D I α} (h : p.Keeps (provenance i P) φ) :
    Vouches i P φ (engine p) :=
  fun observed => follows_engineCalls (h observed)

/-- An engine program whose error stops the caller. -/
lemma vouches_ask {p : Engine D I (Except Error α)} (h : p.Keeps (provenance i P) fun _ => True) :
    (ask (engine p)).run.Keeps (sessionProvenance i P) (IfOk fun _ => True) :=
  (vouches_engine h).mono fun _ _ _ _ => trivial

/-! ## Parts of operations -/

lemma vouches_releaseAll (resources : List ResourceId) :
    Vouches i P (fun _ => True) (releaseAll resources : Managed D I _) := by
  induction resources with
  | nil => exact .done trivial
  | cons resource resources ih => exact .call fun _ => ⟨trivial, fun _ _ => ⟨rfl, ih⟩⟩

lemma vouches_registerAll (refs : List LiveRef) :
    Vouches i P (fun _ => True) (registerAll refs : Managed D I _) := by
  induction refs with
  | nil => exact .done trivial
  | cons ref refs ih => exact .call fun _ => ⟨trivial, fun _ _ => ⟨rfl, ih⟩⟩

lemma vouches_acquireSorted (held resources : List ResourceId) :
    Vouches i P (IfOk fun _ => True) (acquireSorted held resources : ManagedResult D I _).run := by
  induction resources generalizing held with
  | nil => exact .done fun _ _ => trivial
  | cons resource resources ih =>
      refine .call fun _ => ⟨trivial, fun answer _ => ⟨rfl, ?_⟩⟩
      match answer with
      | .ok _ => exact ih _
      | .error error => exact keeps_value (vouches_releaseAll held) fun _ _ => .done ifOk_error

lemma vouches_unregisterActive (resource : ResourceId) :
    Vouches i P (fun _ => True) (unregisterActive resource : Managed D I _) :=
  .call fun _ => ⟨trivial, fun _ _ => ⟨rfl, .call fun _ => ⟨trivial, fun _ _ => ⟨rfl,
    .call fun _ => ⟨trivial, fun _ _ => ⟨rfl, .done trivial⟩⟩⟩⟩⟩⟩

lemma vouches_withLiveRecord (ref : LiveRef) {f : Managed D I α}
    (hf : Vouches i P (fun _ => True) f) : Vouches i P (fun _ => True) (withLiveRecord ref f) := by
  refine .call fun _ => ⟨trivial, fun token _ => ⟨rfl, ?_⟩⟩
  refine .call fun _ => ⟨trivial, fun _ _ => ⟨rfl, ?_⟩⟩
  refine .call fun _ => ⟨trivial, fun _ _ => ⟨rfl, ?_⟩⟩
  refine Program.Keeps.bind (p := f) hf fun _ _ => ?_
  refine .call fun _ => ⟨trivial, fun _ _ => ⟨rfl, ?_⟩⟩
  exact .call fun _ => ⟨trivial, fun _ _ => ⟨rfl, .done trivial⟩⟩

lemma vouches_teardown {step : LiveRef → Managed D I (Except Error Unit)}
    (hstep : ∀ ref, Vouches i P (fun _ => True) (step ref)) (refs : List LiveRef)
    (locks : List ResourceId) : Vouches i P (fun _ => True) (teardown step refs locks) := by
  induction refs generalizing locks with
  | nil => exact .done trivial
  | cons ref refs ih =>
      have record : Vouches i P (fun _ => True) (teardownRecord step ref locks) := by
        refine vouches_withLiveRecord ref ((vouches_unregisterActive _).bind fun _ _ => ?_)
        refine (hstep ref).bind fun answer _ => ?_
        match answer with
        | .ok _ => exact (vouches_releaseAll _).bind fun _ _ => .done trivial
        | .error error => exact .done trivial
      refine Program.Keeps.bind (p := teardownRecord step ref locks) record fun answer _ => ?_
      match answer with
      | .ok _ => exact ih _
      | .error error => exact (ih _).bind fun _ _ => .done trivial

lemma vouches_abandonRecord (ref : LiveRef) :
    Vouches i P (fun _ => True) (abandonRecord ref : Managed D I _) :=
  (vouches_engine (keeps_liveGet ref)).bind fun _ _ =>
    vouches_engine (keeps_journalRemove _ _ _)

lemma vouches_releaseEnforceWatch :
    Vouches i P (fun _ => True) (releaseEnforceWatch M : Managed D I _) := by
  unfold releaseEnforceWatch
  split
  · exact .done trivial
  · exact .call fun _ => ⟨trivial, fun _ _ => ⟨rfl, .done trivial⟩⟩

lemma vouches_ensureEnforceWatch :
    Vouches i P (fun _ => True) (ensureEnforceWatch M : ManagedResult D I _).run := by
  unfold ensureEnforceWatch
  split
  · exact .done trivial
  split
  · exact .done trivial
  · exact .call fun _ => ⟨trivial, fun _ _ => ⟨rfl, .done trivial⟩⟩

/-! ## Operations on a lease -/

section Lease

/-- The end of a teardown. -/
lemma vouches_endTeardown (lease : Lease) (phase : LeasePhase) (result : Teardown) :
    Vouches i P (fun _ => True) (match result.error with
      | none => do
          releaseAll result.locks
          return (.ok (), { lease with state := none })
      | some error => return (.error error,
          { lease with state := some ⟨result.live, result.locks, phase⟩ }) :
        Managed D I (Except Error Unit × Lease)) := by
  split
  · exact (vouches_releaseAll _).bind fun _ _ => .done trivial
  · exact .done trivial

lemma vouches_restoreState (hB : M.backend.Guarded) (lease : Lease) :
    Vouches i P (fun _ => True) (lease.restoreState M : Managed D I _) := by
  unfold Lease.restoreState
  split
  · exact .done trivial
  · refine (vouches_teardown (fun ref => vouches_engine (keeps_restoreLiveState hB)) _ _).bind
      fun result _ => ?_
    dsimp only
    split
    · exact vouches_releaseEnforceWatch.bind fun _ _ => vouches_endTeardown _ _ _
    · exact vouches_endTeardown _ _ _

lemma vouches_abandonState (lease : Lease) :
    Vouches i P (fun _ => True) (lease.abandonState M : Managed D I _) := by
  unfold Lease.abandonState
  split
  · exact .done trivial
  · refine (vouches_teardown vouches_abandonRecord _ _).bind fun result _ => ?_
    dsimp only
    split
    · exact vouches_releaseEnforceWatch.bind fun _ _ => vouches_endTeardown _ _ _
    · exact vouches_endTeardown _ _ _

variable (hB : M.backend.Guarded)
include hB

lemma vouches_dropRecords (phase : LeasePhase) (refs : List LiveRef) :
    Vouches i P (fun _ => True) (dropRecords M phase refs : Managed D I _) := by
  induction refs with
  | nil => exact .done trivial
  | cons ref refs ih =>
      refine Program.Keeps.bind (vouches_withLiveRecord ref ?_) fun _ _ => ih
      split
      · exact (vouches_abandonRecord ref).bind fun _ _ => vouches_unregisterActive _
      · exact (vouches_engine (keeps_restoreLiveState hB)).bind fun _ _ =>
          vouches_unregisterActive _

lemma vouches_drop (lease : Lease) :
    Vouches i P (fun _ => True) (lease.drop M : Managed D I _) := by
  unfold Lease.drop
  split
  · exact .done trivial
  · refine (vouches_dropRecords hB _ _).bind fun _ _ => (vouches_releaseAll _).bind fun _ _ => ?_
    split
    · exact vouches_releaseEnforceWatch
    · exact .done trivial

lemma vouches_restore (lease : Lease) :
    Vouches i P (fun _ => True) (lease.restore M : Managed D I _) :=
  (vouches_restoreState hB lease).bind fun answer _ => by
    match answer with
    | (.ok _, _) => exact .done trivial
    | (.error error, lease) => exact .done trivial

omit hB in
lemma vouches_abandon (lease : Lease) :
    Vouches i P (fun _ => True) (lease.abandon M : Managed D I _) :=
  (vouches_abandonState lease).bind fun answer _ => by
    match answer with
    | (.ok _, _) => exact .done trivial
    | (.error error, lease) => exact .done trivial

end Lease

lemma vouches_allRegistered (refs : List LiveRef) :
    Vouches i P (fun _ => True) (allRegistered refs : Managed D I _) := by
  induction refs with
  | nil => exact .done trivial
  | cons ref refs ih =>
      refine .call fun _ => ⟨trivial, fun answer _ => ⟨rfl, ?_⟩⟩
      match answer with
      | some _ => exact ih
      | none => exact .done trivial

lemma vouches_checkIdentities (refs : List LiveRef) :
    Vouches i P (IfOk fun _ => True) (checkIdentities M refs : ManagedResult D I _).run := by
  induction refs with
  | nil => exact .done fun _ _ => trivial
  | cons ref refs ih =>
      refine keeps_value (vouches_engine (keeps_liveGet ref)) fun live _ => ?_
      refine keeps_bind (vouches_ask (keeps_status _ _)) (fun status _ => ?_) fun _ => ifOk_error
      cases status with
      | same => exact ih
      | gone | replaced | ambiguous => exact .done ifOk_error

lemma vouches_getTokens (resources : List ResourceId) :
    Vouches i P (fun _ => True) (getTokens resources : Managed D I _) := by
  induction resources with
  | nil => exact .done trivial
  | cons resource resources ih =>
      exact .call fun _ => ⟨trivial, fun _ _ => ⟨rfl, ih.bind fun _ _ => .done trivial⟩⟩

lemma vouches_lockTokens (tokens : List Token) :
    Vouches i P (fun _ => True) (lockTokens tokens : Managed D I _) := by
  induction tokens with
  | nil => exact .done trivial
  | cons token tokens ih => exact .call fun _ => ⟨trivial, fun _ _ => ⟨rfl, ih⟩⟩

lemma vouches_unlockTokens (tokens : List Token) :
    Vouches i P (fun _ => True) (unlockTokens tokens : Managed D I _) := by
  induction tokens with
  | nil => exact .done trivial
  | cons token tokens ih => exact .call fun _ => ⟨trivial, fun _ _ => ⟨rfl, ih⟩⟩

lemma vouches_enterSections (refs : List LiveRef) :
    Vouches i P (fun _ => True) (enterSections refs : Managed D I _) := by
  induction refs with
  | nil => exact .done trivial
  | cons ref refs ih => exact .call fun _ => ⟨trivial, fun _ _ => ⟨rfl, ih⟩⟩

lemma vouches_leaveSections (refs : List LiveRef) :
    Vouches i P (fun _ => True) (leaveSections refs : Managed D I _) := by
  induction refs with
  | nil => exact .done trivial
  | cons ref refs ih => exact .call fun _ => ⟨trivial, fun _ _ => ⟨rfl, ih⟩⟩

lemma vouches_pure (result : Except Error α) :
    (ask (pure result) : ManagedResult D I α).run.Keeps (sessionProvenance i P)
      (IfOk fun _ => True) :=
  .done fun _ _ => trivial

section Update

variable (hB : M.backend.Guarded)
include hB

lemma vouches_updateLocked (live : List LiveRef) (owned : List ResourceId)
    (plan : NormalizedConfig) : Vouches i P (fun _ => True)
      (updateLocked M live owned plan : ManagedResult D I _).run := by
  refine keeps_value (vouches_getTokens _) fun tokens _ => ?_
  refine keeps_value (vouches_lockTokens _) fun _ _ => ?_
  refine keeps_value (vouches_enterSections _) fun _ _ => ?_
  refine keeps_value (vouches_engine (keeps_transactUpdate hB live plan)) fun result _ => ?_
  refine keeps_value (vouches_leaveSections _) fun _ _ => ?_
  refine keeps_value (vouches_unlockTokens _) fun _ _ => ?_
  refine keeps_value (p := Managed.rescanEnforce) (ψ := fun _ => True) ?_ fun _ _ => ?_
  · exact .call fun _ => ⟨trivial, fun _ _ => ⟨rfl, .done trivial⟩⟩
  · exact .done trivial

lemma vouches_update (lease : Lease) (config : DnsConfig) :
    Vouches i P (fun _ => True) (lease.update M config : ManagedResult D I _).run := by
  refine keeps_bind (vouches_pure _) (fun plan _ => ?_) fun _ => trivial
  refine keeps_bind (vouches_pure _) (fun _ _ => ?_) fun _ => trivial
  split
  · exact .done trivial
  · next state _ =>
      refine keeps_value (vouches_allRegistered _) fun registered _ => ?_
      by_cases ending : state.phase ≠ .active ∨ registered = false
      · simp only [if_pos ending]
        exact .done trivial
      · simp only [if_neg ending]
        refine keeps_bind (vouches_checkIdentities _) (fun _ _ => ?_) fun _ => trivial
        refine keeps_bind (p := ask (Managed.resolveResources config.scope plan))
          (ψ := fun _ => True) ?_ (fun wanted _ => ?_) fun _ => trivial
        · exact .call fun _ => ⟨trivial, fun _ _ => ⟨rfl, .done fun _ _ => trivial⟩⟩
        · split
          · exact .done trivial
          · exact vouches_updateLocked hB _ _ _

end Update

/-! ## Recovery -/

section Recovery

variable (hB : M.backend.Guarded)
include hB

lemma vouches_recoverResources {journals : List (JournalRecord D I)}
    (h : RecordsFrom P journals) (resources : List ResourceId) :
    Vouches i P (IfOk fun _ => True) (recoverResources M journals resources).run := by
  induction resources generalizing journals with
  | nil => exact .done fun _ _ => trivial
  | cons resource resources ih =>
      unfold recoverResources
      split
      · exact ih h
      · next record found =>
          refine keeps_value (vouches_engine (keeps_recoverForResource hB
            (h record (List.mem_of_find?_eq_some found)))) fun answer _ => ?_
          match answer with
          | .ok _ => exact ih fun x hx => h x (List.mem_of_mem_eraseP hx)
          | .error (.journal error) => exact .done ifOk_error
          | .error (.conflict detail) => exact .done ifOk_error

lemma vouches_recoverStaleRecord {record : JournalRecord D I}
    (h : RecordFrom P ⟨record.leaseId, record.resource⟩ record) :
    Vouches i P (fun _ => True) (recoverStaleRecord M record) := by
  unfold recoverStaleRecord
  split
  · exact .done trivial
  refine .call fun _ => ⟨trivial, fun answer _ => ⟨rfl, ?_⟩⟩
  match answer with
  | .ok false => exact .done trivial
  | .error error => cases error <;> exact .done trivial
  | .ok true =>
      refine (vouches_engine (keeps_recoverRecord hB h)).bind fun result _ => ?_
      refine .call fun _ => ⟨trivial, fun _ _ => ⟨rfl, ?_⟩⟩
      match result with
      | .ok outcome => exact .done trivial
      | .error error => exact .done trivial

lemma vouches_recoverStaleRecords {records : List (JournalRecord D I)}
    (h : RecordsFrom P records) : Vouches i P (fun _ => True) (recoverStaleRecords M records) := by
  induction records with
  | nil => exact .done trivial
  | cons record records ih =>
      obtain ⟨head, tail⟩ := List.forall_mem_cons.mp h
      exact (vouches_recoverStaleRecord hB head).bind fun _ _ =>
        (ih tail).bind fun _ _ => .done trivial

omit hB in
/-- The records a session reads. -/
lemma vouches_journalRecords : (ask (engine Engine.journalRecords) :
    ManagedResult D I (List (JournalRecord D I))).run.Keeps (sessionProvenance i P)
      (IfOk (RecordsFrom P)) := by
  refine .call fun _ => ⟨trivial, fun answer ha => ⟨rfl, .done fun records h => ?_⟩⟩
  subst h
  exact ha

lemma vouches_recoverStale :
    Vouches i P (fun _ => True) (M.recoverStale : ManagedResult D I _).run :=
  keeps_bind vouches_journalRecords (fun _ h =>
    (vouches_recoverStaleRecords hB h).bind fun _ _ => .done trivial) fun _ => trivial

omit hB in
lemma vouches_abandonRecords (resource : ResourceId) (records : List (JournalRecord D I)) :
    Vouches i P (fun _ => True) (abandonRecords resource records) := by
  induction records with
  | nil => exact .done trivial
  | cons record records ih =>
      refine (vouches_engine (keeps_journalRemove _ _ _)).bind fun answer _ => ?_
      match answer with
      | .ok _ => exact ih
      | .error error => exact .done trivial

end Recovery

/-! ## Apply -/

section Apply

variable (hB : M.backend.Guarded)
include hB

lemma vouches_activateLease (prepared : PreparedLease) (locks : List ResourceId) :
    Vouches i P (fun _ => True) (activateLease M prepared locks : ManagedResult D I _).run := by
  have created : Vouches i P (fun _ => True) (newOwned prepared locks : Managed D I _) :=
    (vouches_registerAll _).bind fun _ _ => .done trivial
  refine keeps_value created fun lease _ => ?_
  refine keeps_value vouches_ensureEnforceWatch fun answer _ => ?_
  match answer with
  | .ok _ =>
      exact keeps_value (p := Managed.rescanEnforce) (ψ := fun _ => True)
        (.call fun _ => ⟨trivial, fun _ _ => ⟨rfl, .done trivial⟩⟩) fun _ _ => .done trivial
  | .error error =>
      refine keeps_value (vouches_restore hB lease) fun answer _ => ?_
      match answer with
      | .ok _ => exact .done trivial
      | .error (failure, lease) =>
          exact keeps_value (vouches_drop hB lease) fun _ _ => .done trivial

omit hB in
/-- An apply observes resources it has not observed, each of them once. -/
lemma follows_observeAll {resources : List ResourceId} {observed : Set ResourceId}
    (hnodup : resources.Nodup) (hfresh : ∀ r ∈ resources, r ∉ observed) :
    (observeAll resources : EngineResult D I _).run.Follows (provenance i P)
      (fun answer _ => IfOk (ObservedFrom P i) answer) observed := by
  induction resources generalizing observed with
  | nil => exact ifOk_ok (by simp [ObservedFrom])
  | cons resource resources ih =>
      obtain ⟨hnot, hnodup⟩ := List.nodup_cons.mp hnodup
      refine ⟨hfresh _ (List.mem_cons_self ..), fun answer ha => ?_⟩
      match answer with
      | .error error => exact ifOk_error
      | .ok observation =>
          refine ⟨trivial, fun fired _ => ?_⟩
          match fired with
          | .error error => exact ifOk_error
          | .ok _ =>
              have hrest : ∀ r ∈ resources, r ∉ insert resource observed := by
                rintro r hr (rfl | ho)
                · exact hnot hr
                · exact hfresh r (List.mem_cons_of_mem _ hr) ho
              refine follows_bind (ih hnodup hrest) (fun rest s h => ?_) fun _ _ _ => ifOk_error
              exact ifOk_ok (List.forall_mem_cons.mpr ⟨ha, h rest rfl⟩)

lemma follows_applyLocked {plan : NormalizedConfig} {resources : List ResourceId}
    (hnodup : resources.Nodup) :
    (applyLocked M plan resources : ManagedResult D I _).run.Follows (sessionProvenance i P)
      (fun _ _ => True) ∅ := by
  refine follows_bind (vouches_ask (keeps_fire _) ∅) (fun _ s hs => ?_) fun _ _ _ => trivial
  obtain rfl := hs.1
  refine follows_bind (vouches_journalRecords ∅) (fun journals s hs => ?_) fun _ _ _ => trivial
  obtain ⟨rfl, hj⟩ := hs
  refine follows_bind (vouches_recoverResources hB (hj journals rfl) resources ∅)
    (fun _ s hs => ?_) fun _ _ _ => trivial
  obtain rfl := hs.1
  refine follows_bind (vouches_ask (keeps_fire _) ∅) (fun _ s hs => ?_) fun _ _ _ => trivial
  obtain rfl := hs.1
  refine follows_bind (follows_engineCalls (follows_observeAll hnodup (by simp)))
    (fun observations s hs => ?_) fun _ _ _ => trivial
  refine follows_bind (vouches_ask (keeps_fire _) s) (fun _ t ht => ?_) fun _ _ _ => trivial
  exact (vouches_engine (keeps_transactWithLocks hB (hs observations rfl)) t).mono
    fun _ _ _ => trivial

lemma follows_applyEvidence (config : DnsConfig) :
    (M.apply config : ManagedResult D I _).run.Follows (sessionProvenance i P)
      (fun _ _ => True) ∅ := by
  refine follows_bind (vouches_pure _ ∅) (fun plan s hs => ?_) fun _ _ _ => trivial
  obtain rfl := hs.1
  refine follows_bind (vouches_pure _ ∅) (fun _ s hs => ?_) fun _ _ _ => trivial
  obtain rfl := hs.1
  refine follows_bind (vouches_ask (keeps_fire _) ∅) (fun _ s hs => ?_) fun _ _ _ => trivial
  obtain rfl := hs.1
  refine ⟨trivial, fun answer ha => ?_⟩
  match answer with
  | .error error => trivial
  | .ok resources =>
  refine follows_bind (vouches_ask (keeps_fire _) ∅) (fun _ s hs => ?_) fun _ _ _ => trivial
  obtain rfl := hs.1
  refine follows_bind (vouches_acquireSorted [] _ ∅) (fun locks s hs => ?_) fun _ _ _ => trivial
  obtain rfl := hs.1
  refine follows_value (follows_applyLocked hB ha) fun answer s _ => ?_
  match answer with
  | .ok prepared => exact (vouches_activateLease hB prepared locks s).mono fun _ _ _ => trivial
  | .error error =>
      exact follows_value (vouches_releaseAll locks s) fun _ _ _ => trivial

end Apply

section Journal

lemma vouches_abandonJournal (resource : ResourceId) :
    Vouches i P (fun _ => True) (M.abandonJournal resource : ManagedResult D I _).run := by
  refine keeps_bind (p := ask (Managed.acquire resource)) (ψ := fun _ => True)
    (.call fun _ => ⟨trivial, fun _ _ => ⟨rfl, .done fun _ _ => trivial⟩⟩) (fun _ _ => ?_)
    fun _ => trivial
  have finish : ∀ result : Except Error Unit, ((do
      value (Managed.release resource)
      ask (pure result) : ManagedResult D I Unit)).run.Keeps (sessionProvenance i P)
        fun _ => True := fun result =>
    .call fun _ => ⟨trivial, fun _ _ => ⟨rfl, .done trivial⟩⟩
  refine keeps_value (vouches_journalRecords) fun answer _ => ?_
  match answer with
  | .error error => exact finish _
  | .ok all =>
      dsimp only
      split
      · exact finish _
      · exact keeps_value (vouches_abandonRecords resource _) fun result _ => finish result

end Journal

/-! ## Requests -/

/-- A request of a Cooperative manager that needs no handle. -/
lemma follows_aloneEvidence {M : FakeManager} {P : Origin FakeSnapshotData}
    (hB : M.backend.Guarded) {request : Request} (hr : ∀ r, request ≠ .reconcile r) :
    (request.alone M).Follows (sessionProvenance i P) (fun _ _ => True) ∅ := by
  cases request with
  | apply config =>
      exact (follows_applyEvidence hB config).bind fun _ _ _ => trivial
  | reconcile r => exact absurd rfl (hr r)
  | recoverStale => exact (vouches_recoverStale hB ∅).bind fun _ _ _ => trivial
  | abandonJournal r => exact (vouches_abandonJournal r ∅).bind fun _ _ _ => trivial
  | update lease config => trivial
  | restore lease => trivial
  | abandon lease => trivial
  | drop lease => trivial

lemma follows_onLeaseEvidence {M : FakeManager} {P : Origin FakeSnapshotData}
    (hB : M.backend.Guarded) {lease : Lease} {request : Request} :
    (request.onLease M lease).Follows (sessionProvenance i P) (fun _ _ => True) ∅ := by
  cases request with
  | update _ config => exact (vouches_update hB lease config ∅).bind fun _ _ _ => trivial
  | restore _ => exact (vouches_restore hB lease ∅).bind fun _ _ _ => trivial
  | abandon _ => exact (vouches_abandon lease ∅).bind fun _ _ _ => trivial
  | drop _ => exact (vouches_drop hB lease ∅).bind fun _ _ _ => trivial
  | apply | reconcile | recoverStale | abandonJournal => trivial

end Osdns
