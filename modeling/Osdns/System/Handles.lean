import Mathlib.Data.List.Perm.Lattice
import Osdns.Framework.Discipline
import Osdns.Model.System

/-!
# What operations leave to their callers

The handle of a lease is well formed when its live records are its own, no resource occurs twice,
and the locks it holds are those of the live records it still has.  Every operation hands back a
well-formed handle of the lease it worked for, whatever its calls are answered.
-/

namespace Osdns

open Interaction
open Interaction.Fallible (ask value attempt yields_value yields_bind yields_after yields_ignore)

variable {D I α : Type} {M : Manager D} {B : Backend D} {i : SessionId}

/-! ## Well-formed handles -/

/-- What always holds between the parts of a lease that has not ended. -/
structure LiveLease.Wf (leaseId : LeaseId) (resources : List ResourceId) (state : LiveLease) :
    Prop where
  lease : ∀ ref ∈ state.live, ref.lease = leaseId
  distinct : (state.live.map (·.resource)).Nodup
  owned : ∀ r ∈ state.live.map (·.resource), r ∈ resources
  locks_nodup : state.locks.Nodup
  locked : ∀ r, r ∈ state.locks ↔ r ∈ state.live.map (·.resource)
  whole : state.phase = .active → state.live.map (·.resource) = resources

/-- A handle whose live part, if any, is well formed. -/
def Lease.Wf (lease : Lease) : Prop :=
  ∀ state, lease.state = some state → state.Wf lease.leaseId lease.resources

/-- The lease counts as active: neither ended nor being torn down. -/
def Lease.isActive (lease : Lease) : Bool :=
  lease.state.any fun state => state.phase = .active

/-- A handle of the given lease, well formed. -/
structure Lease.Of (leaseId : LeaseId) (lease : Lease) : Prop where
  leaseId : lease.leaseId = leaseId
  wf : lease.Wf

/-- What may be assumed of answers: a new lease is named after its session, and no scope resolves
to a resource twice. -/
def HandleAnswers (i : SessionId) : (o : ManagerOp D I) → ManagerRet D I o → Prop
  | .engine .newLeaseId, answer => answer = i
  | .resolveResources _ _, answer => ∀ resources, answer = .ok resources → resources.Nodup
  | _, _ => True

/-- The same for calls of the engine. -/
def NewLeaseNamed (i : SessionId) (o : EngineOp D I) (answer : EngineRet D I o) : Prop :=
  HandleAnswers i (.engine o) answer

lemma yields_engine {p : Engine D I α} {φ : α → Prop} (hp : p.Yields (NewLeaseNamed i) φ) :
    (engine p).Yields (HandleAnswers i) φ :=
  hp.lift fun _ _ h => h

/-! ## Teardown -/

/-- What a teardown of `refs` keeps: some of the records, and the locks of the other resources
and of the records kept. -/
structure Teardown.Kept (refs : List LiveRef) (held : List ResourceId) (result : Teardown) :
    Prop where
  records : result.live.Sublist refs
  sublocks : result.locks.Sublist held
  locked : ∀ r, r ∈ result.locks ↔
    r ∈ held ∧ (r ∈ refs.map (·.resource) → r ∈ result.live.map (·.resource))

lemma yields_teardown {step : LiveRef → Managed D I (Except Error Unit)} {refs : List LiveRef}
    {locks : List ResourceId} (hrefs : (refs.map (·.resource)).Nodup) :
    (teardown step refs locks).Yields (HandleAnswers i) (Teardown.Kept refs locks) := by
  induction refs generalizing locks with
  | nil => exact ⟨.refl _, .refl _, fun r => by simp⟩
  | cons ref refs ih =>
      rw [List.map_cons, List.nodup_cons] at hrefs
      refine Program.Yields.after fun answer => ?_
      match answer with
      | .ok _ =>
          refine (ih hrefs.2).mono (fun _ _ h => h) fun result h => ?_
          refine ⟨h.records.cons _, h.sublocks.trans List.filter_sublist, fun r => ?_⟩
          rw [h.locked, List.mem_filter, List.map_cons, List.mem_cons]
          by_cases hr : r = ref.resource
          · subst hr
            have hnot : ref.resource ∉ result.live.map (·.resource) := fun hmem =>
              hrefs.1 ((h.records.map _).subset hmem)
            simp [hnot]
          · simp [hr]
      | .error error =>
          refine (ih hrefs.2).bind fun rest h => ?_
          refine ⟨h.records.cons_cons _, h.sublocks, fun r => ?_⟩
          change r ∈ rest.locks ↔ _
          rw [h.locked]
          simp only [List.map_cons, List.mem_cons]
          constructor
          · rintro ⟨hl, himp⟩
            exact ⟨hl, fun h => h.imp id himp⟩
          · rintro ⟨hl, himp⟩
            refine ⟨hl, fun hmem => (himp (.inr hmem)).resolve_left ?_⟩
            rintro rfl
            exact hrefs.1 hmem

/-- What an operation that ends a lease leaves: a well-formed handle that is not active. -/
structure Lease.Ending (lease lease' : Lease) : Prop where
  leaseId : lease'.leaseId = lease.leaseId
  resources : lease'.resources = lease.resources
  wf : lease'.Wf
  inactive : lease'.isActive = false

lemma Lease.Ending.of {lease lease' : Lease} (h : lease.Ending lease') :
    lease'.Of lease.leaseId :=
  ⟨h.leaseId, h.wf⟩

lemma Lease.Ending.ended (lease : Lease) : lease.Ending { lease with state := none } :=
  ⟨rfl, rfl, fun _ h => absurd h (by simp), rfl⟩

/-- A failed teardown leaves a well-formed handle. -/
lemma Teardown.Kept.ending {lease : Lease} {state : LiveLease} {result : Teardown}
    {phase : LeasePhase} (h : result.Kept state.live state.locks)
    (hs : state.Wf lease.leaseId lease.resources) (hphase : phase ≠ .active) :
    lease.Ending { lease with state := some ⟨result.live, result.locks, phase⟩ } := by
  refine ⟨rfl, rfl, fun left hleft => ?_, by simp [Lease.isActive, hphase]⟩
  obtain rfl := Option.some.inj hleft
  refine ⟨fun ref href => hs.lease ref (h.records.subset href), hs.distinct.sublist (h.records.map _),
    fun r hr => hs.owned r ((h.records.map _).subset hr), hs.locks_nodup.sublist h.sublocks,
    fun r => ?_, fun hactive => absurd hactive hphase⟩
  change r ∈ result.locks ↔ r ∈ result.live.map (·.resource)
  rw [h.locked, hs.locked]
  exact ⟨fun ⟨hr, himp⟩ => himp hr, fun hr => ⟨(h.records.map _).subset hr, fun _ => hr⟩⟩

lemma yields_restoreState {lease : Lease} (hwf : lease.Wf) :
    (lease.restoreState M : Managed D I _).Yields (HandleAnswers i) fun answer =>
      lease.Ending answer.2 := by
  unfold Lease.restoreState
  cases hstate : lease.state with
  | none => exact ⟨rfl, rfl, hwf, by simp [Lease.isActive, hstate]⟩
  | some state =>
      have hs := hwf state hstate
      refine (yields_teardown hs.distinct).bind fun result hk => ?_
      dsimp only
      split
      · refine Program.Yields.after fun _ => ?_
        split
        · exact Program.Yields.after fun _ => .ended lease
        · exact hk.ending hs (by simp)
      · split
        · exact Program.Yields.after fun _ => .ended lease
        · exact hk.ending hs (by simp)

lemma yields_abandonState {lease : Lease} (hwf : lease.Wf) :
    (lease.abandonState M : Managed D I _).Yields (HandleAnswers i) fun answer =>
      lease.Ending answer.2 := by
  unfold Lease.abandonState
  cases hstate : lease.state with
  | none => exact ⟨rfl, rfl, hwf, by simp [Lease.isActive, hstate]⟩
  | some state =>
      have hs := hwf state hstate
      refine (yields_teardown hs.distinct).bind fun result hk => ?_
      dsimp only
      split
      · refine Program.Yields.after fun _ => ?_
        split
        · exact Program.Yields.after fun _ => .ended lease
        · exact hk.ending hs (by simp)
      · split
        · exact Program.Yields.after fun _ => .ended lease
        · exact hk.ending hs (by simp)

/-- A failed restore hands back the lease, no longer active. -/
lemma yields_restore {lease : Lease} (hwf : lease.Wf) :
    (lease.restore M : Managed D I _).Yields (HandleAnswers i) fun answer =>
      ∀ error lease', answer = .error (error, lease') → lease.Ending lease' :=
  (yields_restoreState hwf).bind fun answer h => by
    match answer with
    | (.ok _, _) => exact fun _ _ ha => absurd ha (by simp)
    | (.error error, lease') =>
        rintro _ _ ⟨⟩
        exact h

/-- A failed abandonment hands back the lease, no longer active. -/
lemma yields_abandon {lease : Lease} (hwf : lease.Wf) :
    (lease.abandon M : Managed D I _).Yields (HandleAnswers i) fun answer =>
      ∀ error lease', answer = .error (error, lease') → lease.Ending lease' :=
  (yields_abandonState hwf).bind fun answer h => by
    match answer with
    | (.ok _, _) => exact fun _ _ ha => absurd ha (by simp)
    | (.error error, lease') =>
        rintro _ _ ⟨⟩
        exact h

/-! ## Apply -/

lemma yields_observed {resources : List ResourceId} : (observeAll resources :
    EngineResult D I _).run.Yields (NewLeaseNamed i) fun answer =>
      ∀ observations, answer = .ok observations → observations.map Prod.fst = resources := by
  induction resources with
  | nil =>
      intro observations h
      obtain rfl := Except.ok.inj h
      rfl
  | cons resource resources ih =>
      have herror : ∀ error : Error, ∀ observations : List (ResourceId × BoundObservation D I),
          Except.error error = .ok observations →
            observations.map Prod.fst = resource :: resources := fun _ _ h => absurd h (by simp)
      refine yields_after (fun observation => yields_after (fun _ => ?_) herror) herror
      refine yields_bind ih (fun rest hrest observations h => ?_) herror
      obtain rfl := Except.ok.inj h
      rw [List.map_cons, hrest]

/-- A lease of `transactWithLocks` is named after its session, over the resources observed. -/
lemma yields_transacted {owner : String} {plan : NormalizedConfig}
    {observations : List (ResourceId × BoundObservation D I)} :
    (transactWithLocks B owner plan observations).run.Yields (NewLeaseNamed i) fun answer =>
      ∀ prepared : PreparedLease, answer = .ok prepared →
        prepared.leaseId = i ∧ prepared.resources = observations.map Prod.fst := by
  have herror : ∀ error : Error, ∀ prepared : PreparedLease, Except.error error = .ok prepared →
      prepared.leaseId = i ∧ prepared.resources = observations.map Prod.fst :=
    fun _ _ h => absurd h (by simp)
  intro lease hlease
  obtain rfl : lease = i := hlease
  dsimp only [ExceptT.bindCont]
  generalize (observations.all fun entry => B.matchesDesired entry.2.snapshot plan) = wasNoop
  have hdone : ∀ prepared : PreparedLease, (.ok ⟨lease,
      (initialRecords B owner lease plan wasNoop observations).map (·.resource),
      wasNoop⟩ : Except Error PreparedLease) = .ok prepared → prepared.leaseId = lease ∧
        prepared.resources = observations.map Prod.fst := fun prepared h => by
    obtain rfl := Except.ok.inj h
    exact ⟨rfl, by simp [initialRecords, Function.comp_def]⟩
  refine yields_after (fun _ => ?_) herror
  cases wasNoop with
  | true => exact yields_after (fun _ => yields_ignore fun _ => hdone) herror
  | false =>
      refine yields_after (fun _ => yields_after (fun _ => ?_) herror) herror
      refine yields_ignore fun _ => yields_ignore fun allWritten => ?_
      cases allWritten with
      | true => exact yields_after (fun _ => hdone) herror
      | false => exact hdone

lemma yields_applyLocked {plan : NormalizedConfig} {resources : List ResourceId} :
    (applyLocked M plan resources : ManagedResult D I _).run.Yields (HandleAnswers i) fun answer =>
      ∀ prepared : PreparedLease, answer = .ok prepared →
        prepared.leaseId = i ∧ prepared.resources = resources := by
  have herror : ∀ error : Error, ∀ prepared : PreparedLease, Except.error error = .ok prepared →
      prepared.leaseId = i ∧ prepared.resources = resources := fun _ _ h => absurd h (by simp)
  refine yields_after (fun _ => yields_after (fun journals => ?_) herror) herror
  refine yields_after (fun _ => yields_after (fun _ => ?_) herror) herror
  refine yields_bind (yields_engine yields_observed) (fun observations hobs => ?_) herror
  refine yields_after (fun _ => ?_) herror
  refine (yields_engine yields_transacted).mono (fun _ _ h => h) fun answer h prepared ha => ?_
  exact ⟨(h prepared ha).1, (h prepared ha).2.trans hobs⟩

/-- `acquire_all` answers with the locks it was asked for. -/
lemma yields_acquireSorted {held resources : List ResourceId} :
    (acquireSorted held resources : ManagedResult D I _).run.Yields (HandleAnswers i) fun answer =>
      ∀ locks, answer = .ok locks → locks = held ++ resources := by
  induction resources generalizing held with
  | nil =>
      intro locks h
      obtain rfl := Except.ok.inj h
      rw [List.append_nil]
  | cons resource resources ih =>
      refine yields_ignore fun answer => ?_
      match answer with
      | .ok _ =>
          refine (@ih (held ++ [resource])).mono (fun _ _ h => h) fun answer h locks ha => ?_
          rw [h locks ha, List.append_assoc]
          rfl
      | .error error => exact yields_ignore fun _ _ h => absurd h (by simp)

/-- Sorting and removing duplicates loses no resource. -/
lemma mem_sortResources {resources : List ResourceId} {r : ResourceId} :
    r ∈ (sortResources resources).dedup ↔ r ∈ resources := by
  rw [List.mem_dedup, sortResources, List.mem_insertionSort]

/-- The handle of a new lease. -/
lemma Lease.wf_new {prepared : PreparedLease} {resources : List ResourceId}
    (hres : prepared.resources = resources) (hnodup : resources.Nodup) :
    Lease.Wf ⟨prepared.leaseId, prepared.resources, prepared.wasNoop,
      some ⟨prepared.resources.map (LiveRef.mk prepared.leaseId), (sortResources resources).dedup,
        .active⟩⟩ := by
  subst hres
  intro state h
  obtain rfl := Option.some.inj h
  have hmap : (prepared.resources.map (LiveRef.mk prepared.leaseId)).map (·.resource) =
      prepared.resources := by simp [Function.comp_def]
  refine ⟨fun ref href => ?_, by rwa [hmap], fun r hr => by rwa [hmap] at hr,
    List.nodup_dedup _, fun r => by rw [mem_sortResources, hmap], fun _ => hmap⟩
  obtain ⟨r, -, rfl⟩ := List.mem_map.mp href
  rfl

lemma yields_activateLease {prepared : PreparedLease} {locks : List ResourceId} :
    (activateLease M prepared locks : ManagedResult D I _).run.Yields (HandleAnswers i)
      fun answer => ∀ lease, answer = .ok lease → lease = ⟨prepared.leaseId, prepared.resources,
        prepared.wasNoop, some ⟨prepared.resources.map (LiveRef.mk prepared.leaseId), locks,
          .active⟩⟩ := by
  refine yields_value (Program.Yields.bind Program.Yields.any fun _ _ => rfl) fun lease hlease => ?_
  refine yields_ignore fun answer => ?_
  match answer with
  | .ok _ =>
      refine yields_ignore fun _ lease' h => ?_
      obtain rfl := Except.ok.inj h
      exact hlease.symm
  | .error error =>
      refine yields_ignore fun answer => ?_
      match answer with
      | .ok _ => exact fun _ h => absurd h (by simp)
      | .error (_, _) => exact yields_ignore fun _ _ h => absurd h (by simp)

/-- A successful apply hands out a well-formed, active handle of a new lease. -/
lemma yields_apply {config : DnsConfig} :
    (M.apply config : ManagedResult D I _).run.Yields (HandleAnswers i) fun answer =>
      ∀ lease, answer = .ok lease → lease.Of i ∧ lease.isActive = true := by
  have herror : ∀ error : Error, ∀ lease : Lease, Except.error error = .ok lease →
      lease.Of i ∧ lease.isActive = true := fun _ _ h => absurd h (by simp)
  refine yields_after (fun plan => yields_after (fun _ => yields_after (fun _ => ?_) herror) herror)
    herror
  refine yields_bind (ψ := List.Nodup) (fun answer h => h) (fun resources hnodup => ?_) herror
  refine yields_after (fun _ => ?_) herror
  refine yields_bind yields_acquireSorted (fun locks hlocks => ?_) herror
  rw [List.nil_append] at hlocks
  subst hlocks
  refine yields_value yields_applyLocked fun answer hprepared => ?_
  match answer with
  | .error error => exact yields_ignore fun _ => herror error
  | .ok prepared =>
      obtain ⟨hid, hres⟩ := hprepared prepared rfl
      refine yields_activateLease.mono (fun _ _ h => h) fun answer h lease ha => ?_
      obtain rfl := h lease ha
      exact ⟨⟨hid, Lease.wf_new hres hnodup⟩, rfl⟩

/-! ## Requests -/

/-- The handle an operation hands back, if any, is a well-formed handle of the lease `key`. -/
def Outcome.Hands (key : LeaseId) (outcome : Outcome) : Prop :=
  ∀ lease, outcome.handle = some lease → lease.Of key

/-- A request without a handle can only hand out the lease it created. -/
lemma yields_alone {M : FakeManager} {request : Request} :
    (request.alone M).Yields (HandleAnswers i) (Outcome.Hands i) := by
  have hnone : ∀ outcome : Outcome, outcome.handle = none → outcome.Hands i :=
    fun outcome h lease hl => absurd (h.symm.trans hl) (by simp)
  cases request with
  | apply config =>
      refine Program.Yields.bind yields_apply fun answer h => ?_
      match answer with
      | .ok lease =>
          intro lease' hl
          obtain rfl := Option.some.inj hl
          exact (h lease rfl).1
      | .error error => exact hnone _ rfl
  | reconcile resource => exact Program.Yields.after fun _ => hnone _ rfl
  | recoverStale => exact Program.Yields.after fun _ => hnone _ rfl
  | abandonJournal resource => exact Program.Yields.after fun _ => hnone _ rfl
  | update | restore | abandon | drop => exact hnone _ rfl

/-- A request on a handle can only hand back a handle of the same lease. -/
lemma yields_onLease {M : FakeManager} {lease : Lease} {request : Request} (hwf : lease.Wf) :
    (request.onLease M lease).Yields (HandleAnswers i) (Outcome.Hands lease.leaseId) := by
  have hnone : ∀ outcome : Outcome, outcome.handle = none → outcome.Hands lease.leaseId :=
    fun outcome h _ hl => absurd (h.symm.trans hl) (by simp)
  have hsome : ∀ (outcome : Outcome) (lease' : Lease), outcome.handle = some lease' →
      lease'.Of lease.leaseId → outcome.Hands lease.leaseId := fun outcome lease' h hof _ hl =>
    Option.some.inj (h.symm.trans hl) ▸ hof
  cases request with
  | update _ config => exact Program.Yields.after fun _ => hsome _ lease rfl ⟨rfl, hwf⟩
  | restore _ =>
      refine (yields_restore hwf).bind fun answer h => ?_
      match answer with
      | .ok _ => exact hnone _ rfl
      | .error (error, lease') => exact hsome _ lease' rfl (h error lease' rfl).of
  | abandon _ =>
      refine (yields_abandon hwf).bind fun answer h => ?_
      match answer with
      | .ok _ => exact hnone _ rfl
      | .error (error, lease') => exact hsome _ lease' rfl (h error lease' rfl).of
  | drop _ => exact Program.Yields.after fun _ => hnone _ rfl
  | apply | reconcile | recoverStale | abandonJournal => exact hnone _ rfl

end Osdns
