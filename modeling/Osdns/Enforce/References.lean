import Osdns.System.Keys

/-!
# The Enforce observation and its reference count

Every lease of an Enforce manager counts one reference on the manager's native observation, from
the end of its `apply` to its first teardown.  The count is raised and lowered in different
operations, under a lock of its own, so it is right only if every operation gives back exactly
what it took.

The cleanup of an `apply` whose own watch start failed does not: it restores the new lease, which
still counts as active, and so gives back a reference that it never took.  When no other lease is
counted at that moment this changes nothing; otherwise the observation of another lease ends.
-/

namespace Osdns

open Interaction
open Interaction.Fallible (ask value attempt follows_value follows_bind only_run_value only_value
  only_bind)

variable {D I α : Type}

/-! ## Operations that do not touch the count -/

/-- The calls that change the reference count. -/
def ManagerOp.isWatch : ManagerOp D I → Bool
  | .enforceEnsure => true
  | .enforceRelease => true
  | _ => false

/-- The program leaves the reference count alone. -/
abbrev Unwatched (p : Managed D I α) : Prop :=
  p.Only (fun _ _ => True) (fun o => o.isWatch = false)

lemma unwatched_engine (p : Engine D I α) : Unwatched (engine p) :=
  (Program.Only.any (A := fun _ _ => True)).lift (fun _ _ => rfl) fun _ _ h => h

lemma unwatched_releaseAll (resources : List ResourceId) :
    Unwatched (releaseAll resources : Managed D I _) := by
  induction resources with
  | nil => trivial
  | cons resource resources ih => exact ⟨rfl, fun _ _ => ih⟩

lemma unwatched_registerAll (refs : List LiveRef) :
    Unwatched (registerAll refs : Managed D I _) := by
  induction refs with
  | nil => trivial
  | cons ref refs ih => exact ⟨rfl, fun _ _ => ih⟩

lemma unwatched_acquireSorted (held resources : List ResourceId) :
    Unwatched (acquireSorted held resources : ManagedResult D I _).run := by
  induction resources generalizing held with
  | nil => trivial
  | cons resource resources ih =>
      refine ⟨rfl, fun answer _ => ?_⟩
      match answer with
      | .ok _ => exact ih _
      | .error error => exact only_value (unwatched_releaseAll held) fun _ => trivial

section Manager

variable (M : Manager D)

lemma unwatched_recoverResources (journals : List (JournalRecord D I))
    (resources : List ResourceId) :
    Unwatched (recoverResources M journals resources).run := by
  induction resources generalizing journals with
  | nil => trivial
  | cons resource resources ih =>
      unfold recoverResources
      split
      · exact ih _
      · refine only_value (unwatched_engine _) fun answer => ?_
        match answer with
        | .ok _ => exact ih _
        | .error (.journal error) => trivial
        | .error (.conflict detail) => trivial

lemma unwatched_applyLocked (plan : NormalizedConfig) (resources : List ResourceId) :
    Unwatched (applyLocked M plan resources : ManagedResult D I _).run := by
  refine only_bind (unwatched_engine _) fun _ => only_bind (unwatched_engine _) fun journals => ?_
  refine only_bind (unwatched_recoverResources M journals resources) fun _ => ?_
  refine only_bind (unwatched_engine _) fun _ => only_bind (unwatched_engine _) fun _ => ?_
  exact only_bind (unwatched_engine _) fun _ => unwatched_engine _

lemma unwatched_withLiveRecord (ref : LiveRef) {f : Managed D I α} (hf : Unwatched f) :
    Unwatched (withLiveRecord ref f) :=
  ⟨rfl, fun _ _ => ⟨rfl, fun _ _ => ⟨rfl, fun _ _ =>
    hf.bind fun _ => ⟨rfl, fun _ _ => ⟨rfl, fun _ _ => trivial⟩⟩⟩⟩⟩

lemma unwatched_unregisterActive (resource : ResourceId) :
    Unwatched (unregisterActive resource : Managed D I _) :=
  ⟨rfl, fun _ _ => ⟨rfl, fun _ _ => ⟨rfl, fun _ _ => trivial⟩⟩⟩

lemma unwatched_teardown {step : LiveRef → Managed D I (Except Error Unit)}
    (hstep : ∀ ref, Unwatched (step ref)) (refs : List LiveRef) (locks : List ResourceId) :
    Unwatched (teardown step refs locks) := by
  induction refs generalizing locks with
  | nil => trivial
  | cons ref refs ih =>
      refine (unwatched_withLiveRecord ref ((unwatched_unregisterActive _).bind fun _ =>
        (hstep ref).bind fun answer => ?_)).bind fun answer => ?_
      · match answer with
        | .ok _ => exact (unwatched_releaseAll _).bind fun _ => trivial
        | .error error => trivial
      · match answer with
        | .ok _ => exact ih _
        | .error error => exact (ih _).bind fun _ => trivial

lemma unwatched_abandonRecord (ref : LiveRef) : Unwatched (abandonRecord ref : Managed D I _) :=
  (unwatched_engine _).bind fun _ => unwatched_engine _

lemma unwatched_dropRecords (phase : LeasePhase) (refs : List LiveRef) :
    Unwatched (dropRecords M phase refs : Managed D I _) := by
  induction refs with
  | nil => trivial
  | cons ref refs ih =>
      refine (unwatched_withLiveRecord ref ?_).bind fun _ => ih
      split
      · exact (unwatched_abandonRecord ref).bind fun _ => unwatched_unregisterActive _
      · exact (unwatched_engine _).bind fun _ => unwatched_unregisterActive _

lemma unwatched_allRegistered (refs : List LiveRef) :
    Unwatched (allRegistered refs : Managed D I _) := by
  induction refs with
  | nil => trivial
  | cons ref refs ih =>
      refine ⟨rfl, fun answer _ => ?_⟩
      match answer with
      | some _ => exact ih
      | none => trivial

lemma unwatched_checkIdentities (refs : List LiveRef) :
    Unwatched (checkIdentities M refs : ManagedResult D I _).run := by
  induction refs with
  | nil => trivial
  | cons ref refs ih =>
      refine only_value (unwatched_engine _) fun live => only_bind (unwatched_engine _) fun status => ?_
      cases status with
      | same => exact ih
      | gone | replaced | ambiguous => trivial

lemma unwatched_getTokens (resources : List ResourceId) :
    Unwatched (getTokens resources : Managed D I _) := by
  induction resources with
  | nil => trivial
  | cons resource resources ih => exact ⟨rfl, fun _ _ => ih.bind fun _ => trivial⟩

lemma unwatched_lockTokens (tokens : List Token) : Unwatched (lockTokens tokens : Managed D I _) := by
  induction tokens with
  | nil => trivial
  | cons token tokens ih => exact ⟨rfl, fun _ _ => ih⟩

lemma unwatched_unlockTokens (tokens : List Token) :
    Unwatched (unlockTokens tokens : Managed D I _) := by
  induction tokens with
  | nil => trivial
  | cons token tokens ih => exact ⟨rfl, fun _ _ => ih⟩

lemma unwatched_enterSections (refs : List LiveRef) :
    Unwatched (enterSections refs : Managed D I _) := by
  induction refs with
  | nil => trivial
  | cons ref refs ih => exact ⟨rfl, fun _ _ => ih⟩

lemma unwatched_leaveSections (refs : List LiveRef) :
    Unwatched (leaveSections refs : Managed D I _) := by
  induction refs with
  | nil => trivial
  | cons ref refs ih => exact ⟨rfl, fun _ _ => ih⟩

lemma unwatched_updateLocked (live : List LiveRef) (owned : List ResourceId)
    (plan : NormalizedConfig) :
    Unwatched (updateLocked M live owned plan : ManagedResult D I _).run := by
  refine only_value (unwatched_getTokens owned) fun tokens => ?_
  refine only_value (unwatched_lockTokens tokens) fun _ => ?_
  refine only_value (unwatched_enterSections live) fun _ => ?_
  refine only_value (unwatched_engine _) fun _ => ?_
  refine only_value (unwatched_leaveSections live) fun _ => ?_
  refine only_value (unwatched_unlockTokens tokens) fun _ => ?_
  exact only_value ⟨rfl, fun _ _ => trivial⟩ fun _ => trivial

lemma unwatched_update (lease : Lease) (config : DnsConfig) :
    Unwatched (lease.update M config : ManagedResult D I _).run := by
  refine only_bind trivial fun plan => only_bind trivial fun _ => ?_
  cases lease.state with
  | none => trivial
  | some state =>
      refine only_value (unwatched_allRegistered state.live) fun registered => ?_
      dsimp only
      split
      · trivial
      · refine only_bind (unwatched_checkIdentities M state.live) fun _ => ?_
        refine only_bind ⟨rfl, fun _ _ => trivial⟩ fun wanted => ?_
        split
        · trivial
        · exact unwatched_updateLocked M state.live _ plan

lemma unwatched_recoverStaleRecords (records : List (JournalRecord D I)) :
    Unwatched (recoverStaleRecords M records) := by
  induction records with
  | nil => trivial
  | cons record records ih =>
      refine Program.Only.bind ?_ fun _ => ih.bind fun _ => trivial
      unfold recoverStaleRecord
      split
      · trivial
      · refine ⟨rfl, fun answer _ => ?_⟩
        match answer with
        | .ok true =>
            refine (unwatched_engine _).bind fun result => ⟨rfl, fun _ _ => ?_⟩
            cases result <;> trivial
        | .ok false => trivial
        | .error error => cases error <;> trivial

lemma unwatched_recoverStale : Unwatched (M.recoverStale : ManagedResult D I _).run :=
  only_bind (unwatched_engine _) fun records =>
    only_run_value (unwatched_recoverStaleRecords M records)

lemma unwatched_abandonRecords (resource : ResourceId) (records : List (JournalRecord D I)) :
    Unwatched (abandonRecords resource records : Managed D I _) := by
  induction records with
  | nil => trivial
  | cons record records ih =>
      refine (unwatched_engine _).bind fun answer => ?_
      match answer with
      | .ok _ => exact ih
      | .error error => trivial

lemma unwatched_abandonJournal (resource : ResourceId) :
    Unwatched (M.abandonJournal resource : ManagedResult D I _).run := by
  refine only_bind ⟨rfl, fun _ _ => trivial⟩ fun _ => ?_
  refine only_value (unwatched_engine _) fun answer => ?_
  have hrelease : ∀ result : Except Error Unit, Unwatched (do
      value (Managed.release resource)
      ask (pure result) : ManagedResult D I Unit).run := fun result =>
    only_value (p := Managed.release resource) ⟨rfl, fun _ _ => trivial⟩ fun _ => trivial
  match answer with
  | .error error => exact hrelease _
  | .ok all =>
      dsimp only
      split
      · exact hrelease _
      · exact only_value (unwatched_abandonRecords resource _) hrelease

lemma unwatched_passReadback (ref : LiveRef) : Unwatched (passReadback ref : Managed D I _) := by
  refine (unwatched_engine _).bind fun answer => ?_
  match answer with
  | .ok snapshot => trivial
  | .error error =>
      cases error with
      | resourceGone backend resource message =>
          refine (unwatched_engine _).bind fun live => (unwatched_engine _).bind fun answer => ?_
          match answer with
          | .ok _ => exact (unwatched_unregisterActive _).bind fun _ => trivial
          | .error error => trivial
      | _ => trivial

lemma unwatched_reconcileStable (B : Backend D) (ref : LiveRef) (second : PlatformSnapshot D) :
    Unwatched (reconcileStable B ref second : Managed D I _) := by
  refine (unwatched_engine _).bind fun live => ?_
  split
  · trivial
  split
  · split
    · trivial
    · exact unwatched_engine _
  split
  · exact ⟨rfl, fun _ _ => trivial⟩
  split
  · exact unwatched_engine _
  refine ⟨rfl, fun answer _ => ?_⟩
  match answer with
  | some cooldown => exact ⟨rfl, fun _ _ => trivial⟩
  | none => exact unwatched_engine _

lemma unwatched_reconcilePass (B : Backend D) (ref : LiveRef) :
    Unwatched (reconcilePass B ref : Managed D I _) := by
  refine (unwatched_engine _).bind fun resolved => (unwatched_engine _).bind fun live => ?_
  split
  · trivial
  refine (unwatched_passReadback ref).bind fun answer => ?_
  match answer with
  | .error outcome => trivial
  | .ok first =>
      refine ⟨rfl, fun _ _ => (unwatched_passReadback ref).bind fun answer => ?_⟩
      match answer with
      | .error outcome => trivial
      | .ok second =>
          dsimp only
          split
          · trivial
          · exact unwatched_reconcileStable B ref second

/-- The end of a pass over a native resource whose lifetime ended. -/
lemma unwatched_lifetimeEnded (ref : LiveRef) (live : LiveRecord D I) : Unwatched (do
    match ← engine (Engine.journalRemove live.record.leaseId ref.resource .lifetime) with
    | .ok _ =>
        unregisterActive ref.resource
        Managed.reconcilerRemove ref.resource
        return .noActiveLease
    | .error _ =>
        Managed.defer ref.resource errorRetry true
        return .failed : Managed D I ReconcileOutcome) := by
  refine (unwatched_engine _).bind fun answer => ?_
  cases answer with
  | ok _ => exact (unwatched_unregisterActive _).bind fun _ => ⟨rfl, fun _ _ => trivial⟩
  | error error => exact ⟨rfl, fun _ _ => trivial⟩

lemma unwatched_reconcileEntry (B : Backend D) (ref : LiveRef) :
    Unwatched (reconcileEntry B ref : Managed D I _) := by
  refine ⟨rfl, fun generation _ => ?_⟩
  refine (unwatched_engine _).bind fun live => (unwatched_engine _).bind fun answer => ?_
  cases answer with
  | error error => exact ⟨rfl, fun _ _ => trivial⟩
  | ok status =>
      cases status with
      | ambiguous => exact ⟨rfl, fun _ _ => trivial⟩
      | gone => exact unwatched_lifetimeEnded ref live
      | replaced => exact unwatched_lifetimeEnded ref live
      | same =>
          refine (unwatched_reconcilePass B ref).bind fun outcome => ?_
          cases outcome with
          | identityAmbiguous => trivial
          | _ => exact ⟨rfl, fun _ _ => trivial⟩

lemma unwatched_reconcileResource (B : Backend D) (resource : ResourceId) :
    Unwatched (reconcileResource B resource : Managed D I _) := by
  refine ⟨rfl, fun answer _ => ?_⟩
  match answer with
  | none => exact ⟨rfl, fun _ _ => trivial⟩
  | some _ =>
      refine ⟨rfl, fun token _ => ⟨rfl, fun _ _ => ⟨rfl, fun answer _ => ?_⟩⟩⟩
      match answer with
      | none => exact ⟨rfl, fun _ _ => ⟨rfl, fun _ _ => trivial⟩⟩
      | some lease =>
          refine ⟨rfl, fun _ _ => (unwatched_reconcileEntry B ⟨lease, resource⟩).bind fun _ => ?_⟩
          exact ⟨rfl, fun _ _ => ⟨rfl, fun _ _ => trivial⟩⟩

lemma unwatched_reconcilePassGated (B : Backend D) (resource : ResourceId) :
    Unwatched (reconcilePassGated B resource : Managed D I _) :=
  ⟨rfl, fun _ _ => (unwatched_reconcileResource B resource).bind fun _ =>
    ⟨rfl, fun _ _ => trivial⟩⟩

end Manager

/-! ## What each operation takes and gives back -/

/-- The discipline of the reference count.  Its state says whether the party counts a reference
that it will hand on or give back.  With `cleanup` a reference may also be given back that was
never taken. -/
def references (i : SessionId) (cleanup : Prop) : Discipline (ManagerRet D I) Bool where
  allows counted o :=
    match o with
    | .enforceEnsure => counted = false
    | .enforceRelease => counted = true ∨ cleanup
    | _ => True
  expects _ o answer := HandleAnswers i o answer
  next counted o answer :=
    match o, answer with
    | .enforceEnsure, .ok _ => true
    | .enforceRelease, _ => false
    | _, _ => counted

section References

variable {M : Manager D} {i : SessionId} {cleanup : Prop} {counted : Bool}

lemma Unwatched.follows {p : Managed D I α} (hp : Unwatched p) :
    p.Follows (references i cleanup) (fun _ left => left = counted) counted := by
  refine Program.Follows.idle (fun o ho => ?_) hp
  cases o with
  | enforceEnsure | enforceRelease => exact absurd ho (by simp [ManagerOp.isWatch])
  | _ => exact ⟨trivial, fun _ _ => ⟨trivial, rfl⟩⟩

/-- The end of a teardown of an active lease gives its reference back. -/
lemma follows_release (hM : M.conflictPolicy = .enforce) (h : counted = true ∨ cleanup) :
    (releaseEnforceWatch M : Managed D I _).Follows (references i cleanup)
      (fun _ left => left = false) counted := by
  unfold releaseEnforceWatch
  rw [if_neg (by simp [hM])]
  exact ⟨h, fun _ _ => rfl⟩

/-- Whether a party counts a reference fits the lease it is about to tear down. -/
def Fits (cleanup : Prop) (lease : Lease) (counted : Bool) : Prop :=
  (lease.isActive = true → counted = true ∨ cleanup) ∧ (lease.isActive = false → counted = false)

lemma Fits.isActive (lease : Lease) : Fits cleanup lease lease.isActive :=
  ⟨.inl, fun h => h⟩

lemma Fits.inactive {lease : Lease} (h : lease.isActive = false) : Fits cleanup lease false :=
  ⟨fun ha => absurd (h.symm.trans ha) (by simp), fun _ => rfl⟩

/-- The end of a teardown: an active lease gives its reference back, another has none. -/
lemma follows_teardown {lease : Lease} {state : LiveLease} {β : Type} {k : Managed D I β}
    (hM : M.conflictPolicy = .enforce) (hstate : lease.state = some state)
    (h : Fits cleanup lease counted) (hk : Unwatched k) :
    (if state.phase = .active then do
        releaseEnforceWatch M
        k
      else k : Managed D I β).Follows (references i cleanup)
      (fun _ left => left = false) counted := by
  split
  · rename_i hphase
    have hactive : lease.isActive = true := by simp [Lease.isActive, hstate, hphase]
    refine (follows_release hM (h.1 hactive)).bind fun _ left hleft => ?_
    subst hleft
    exact hk.follows
  · rename_i hphase
    have hactive : lease.isActive = false := by simp [Lease.isActive, hstate, hphase]
    rw [h.2 hactive]
    exact hk.follows

lemma follows_restoreState {lease : Lease} (hM : M.conflictPolicy = .enforce)
    (h : Fits cleanup lease counted) :
    (lease.restoreState M : Managed D I _).Follows (references i cleanup)
      (fun _ left => left = false) counted := by
  unfold Lease.restoreState
  cases hstate : lease.state with
  | none => exact h.2 (by simp [Lease.isActive, hstate])
  | some state =>
      refine (unwatched_teardown (fun ref => unwatched_engine _) state.live state.locks).follows.bind
        fun result left hleft => ?_
      subst hleft
      refine follows_teardown hM hstate h ?_
      split
      · exact (unwatched_releaseAll _).bind fun _ => trivial
      · trivial

lemma follows_abandonState {lease : Lease} (hM : M.conflictPolicy = .enforce)
    (h : Fits cleanup lease counted) :
    (lease.abandonState M : Managed D I _).Follows (references i cleanup)
      (fun _ left => left = false) counted := by
  unfold Lease.abandonState
  cases hstate : lease.state with
  | none => exact h.2 (by simp [Lease.isActive, hstate])
  | some state =>
      refine (unwatched_teardown unwatched_abandonRecord state.live state.locks).follows.bind
        fun result left hleft => ?_
      subst hleft
      refine follows_teardown hM hstate h ?_
      split
      · exact (unwatched_releaseAll _).bind fun _ => trivial
      · trivial

lemma follows_drop {lease : Lease} (hM : M.conflictPolicy = .enforce)
    (h : Fits cleanup lease counted) :
    (lease.drop M : Managed D I _).Follows (references i cleanup)
      (fun _ left => left = false) counted := by
  unfold Lease.drop
  cases hstate : lease.state with
  | none => exact h.2 (by simp [Lease.isActive, hstate])
  | some state =>
      refine (unwatched_dropRecords M state.phase state.live).follows.bind fun _ left hleft => ?_
      subst hleft
      refine (unwatched_releaseAll state.locks).follows.bind fun _ left hleft => ?_
      subst hleft
      split
      · rename_i hphase
        exact follows_release hM (h.1 (by simp [Lease.isActive, hstate, hphase]))
      · rename_i hphase
        exact h.2 (by simp [Lease.isActive, hstate, hphase])

lemma follows_restore {lease : Lease} (hM : M.conflictPolicy = .enforce)
    (h : Fits cleanup lease counted) :
    (lease.restore M : Managed D I _).Follows (references i cleanup)
      (fun _ left => left = false) counted :=
  (follows_restoreState hM h).bind fun answer left hleft => by
    match answer with
    | (.ok _, _) => exact hleft
    | (.error error, lease') => exact hleft

lemma follows_abandon {lease : Lease} (hM : M.conflictPolicy = .enforce)
    (h : Fits cleanup lease counted) :
    (lease.abandon M : Managed D I _).Follows (references i cleanup)
      (fun _ left => left = false) counted :=
  (follows_abandonState hM h).bind fun answer left hleft => by
    match answer with
    | (.ok _, _) => exact hleft
    | (.error error, lease') => exact hleft

/-- The first reference is taken when the watch is started or already there. -/
lemma follows_ensure (hM : M.conflictPolicy = .enforce) :
    (ensureEnforceWatch M : ManagedResult D I Unit).run.Follows (references i cleanup)
      (fun answer left => left = answer.isOk) false := by
  unfold ensureEnforceWatch
  rw [if_neg (by simp [hM])]
  split
  · rfl
  · refine ⟨rfl, fun answer _ => ?_⟩
    cases answer <;> rfl

/-- The end of `apply` counts a reference exactly when it hands out the lease. -/
lemma follows_activateLease {prepared : PreparedLease} {locks : List ResourceId}
    (hM : M.conflictPolicy = .enforce) (hc : cleanup)
    (hwf : Lease.Wf ⟨prepared.leaseId, prepared.resources, prepared.wasNoop,
      some ⟨prepared.resources.map (LiveRef.mk prepared.leaseId), locks, .active⟩⟩) :
    (activateLease M prepared locks : ManagedResult D I _).run.Follows (references i cleanup)
      (fun answer left => left = answer.isOk) false := by
  have hnew : (newOwned prepared locks : Managed D I Lease).Follows (references i cleanup)
      (fun lease left => left = false ∧ lease.Wf) false :=
    (unwatched_registerAll _).follows.bind fun _ left hleft => ⟨hleft, hwf⟩
  refine follows_value hnew fun lease left hlease => ?_
  obtain ⟨rfl, hlease⟩ := hlease
  refine follows_value (follows_ensure hM) fun answer left hleft => ?_
  subst hleft
  match answer with
  | .ok _ => exact ⟨trivial, fun _ _ => rfl⟩
  | .error error =>
      have hfits : Fits cleanup lease false := ⟨fun _ => .inr hc, fun _ => rfl⟩
      refine follows_value ((follows_restore hM hfits).yields (fun _ _ _ h => h)
        (yields_restore hlease)) fun answer left hleft => ?_
      obtain ⟨rfl, hending⟩ := hleft
      match answer with
      | .ok _ => rfl
      | .error (failure, lease') =>
          refine follows_value (follows_drop hM (.inactive (hending failure lease' rfl).inactive))
            fun _ left hleft => ?_
          subst hleft
          rfl

/-- `apply` counts a reference exactly when it hands out a lease. -/
lemma follows_apply {config : DnsConfig} (hM : M.conflictPolicy = .enforce) (hc : cleanup) :
    (M.apply config : ManagedResult D I _).run.Follows (references i cleanup)
      (fun answer left => left = answer.isOk) false := by
  have hstep : ∀ {β γ : Type} {p : ManagedResult D I β} {k : β → ManagedResult D I γ} {φ : β → Prop},
      Unwatched p.run → p.run.Yields (HandleAnswers i) (fun answer => ∀ a, answer = .ok a → φ a) →
      (∀ a, φ a → (k a).run.Follows (references i cleanup) (fun answer left => left = answer.isOk)
        false) → (p >>= k).run.Follows (references i cleanup)
          (fun answer left => left = answer.isOk) false := fun {β γ p k φ} hp hφ hk =>
    follows_bind (hp.follows.yields (fun _ _ _ h => h) hφ)
      (fun a left h => by obtain ⟨rfl, h⟩ := h; exact hk a (h a rfl))
      fun e left h => h.1
  have hany : ∀ {β : Type} {p : ManagedResult D I β}, p.run.Yields (HandleAnswers i)
      fun answer => ∀ a, answer = .ok a → True :=
    Program.Yields.any.mono (fun _ _ h => h) fun _ _ _ _ => trivial
  refine hstep (φ := fun _ => True) trivial hany fun plan _ => ?_
  refine hstep (φ := fun _ => True) trivial hany fun _ _ => ?_
  refine hstep (φ := fun _ => True) (unwatched_engine _) hany fun _ _ => ?_
  refine hstep (φ := List.Nodup) ⟨rfl, fun _ _ => trivial⟩ (fun _ h => h) fun resources hnodup => ?_
  refine hstep (φ := fun _ => True) (unwatched_engine _) hany fun _ _ => ?_
  refine hstep (unwatched_acquireSorted _ _) yields_acquireSorted fun locks hlocks => ?_
  rw [List.nil_append] at hlocks
  subst hlocks
  refine follows_value ((unwatched_applyLocked M plan resources).follows.yields (fun _ _ _ h => h)
    yields_applyLocked) fun answer left h => ?_
  obtain ⟨rfl, hprepared⟩ := h
  match answer with
  | .ok prepared =>
      exact follows_activateLease hM hc (Lease.wf_new (hprepared prepared rfl).2 hnodup)
  | .error error =>
      refine follows_value (unwatched_releaseAll _).follows fun _ left hleft => ?_
      subst hleft
      rfl

/-! ## Requests -/

/-- The operation hands back an active lease. -/
def Outcome.isActive (outcome : Outcome) : Bool := outcome.handle.any Lease.isActive

variable {N : FakeManager}

/-- A request without a handle ends with a reference exactly when it hands out a lease. -/
lemma follows_alone {request : Request} (hN : N.conflictPolicy = .enforce)
    (hc : (∃ config, request = .apply config) → cleanup) :
    (request.alone N).Follows (references i cleanup)
      (fun outcome left => left = outcome.isActive) false := by
  cases request with
  | apply config =>
      refine ((follows_apply hN (hc ⟨config, rfl⟩)).yields (fun _ _ _ h => h) yields_apply).bind
        fun answer left h => ?_
      obtain ⟨rfl, hactive⟩ := h
      match answer with
      | .ok lease => exact (hactive lease rfl).2.symm
      | .error error => rfl
  | reconcile resource =>
      exact (unwatched_reconcilePassGated _ resource).follows.bind fun _ _ h => h
  | recoverStale => exact (unwatched_recoverStale N).follows.bind fun _ _ h => h
  | abandonJournal resource => exact (unwatched_abandonJournal N resource).follows.bind fun _ _ h => h
  | update | restore | abandon | drop => rfl

/-- A request on a handle starts with the reference of an active lease, and ends with one exactly
when it hands back an active lease. -/
lemma follows_onLease {request : Request} {lease : Lease} (hN : N.conflictPolicy = .enforce)
    (hwf : lease.Wf) (hreq : request.lease.isSome) :
    (request.onLease N lease).Follows (references i cleanup)
      (fun outcome left => left = outcome.isActive) lease.isActive := by
  cases request with
  | update _ config => exact (unwatched_update N lease config).follows.bind fun _ _ h => h
  | restore _ =>
      refine ((follows_restore hN (.isActive lease)).yields (fun _ _ _ h => h)
        (yields_restore hwf)).bind fun answer left h => ?_
      obtain ⟨rfl, hending⟩ := h
      match answer with
      | .ok _ => rfl
      | .error (error, lease') => exact (hending error lease' rfl).inactive.symm
  | abandon _ =>
      refine ((follows_abandon hN (.isActive lease)).yields (fun _ _ _ h => h)
        (yields_abandon hwf)).bind fun answer left h => ?_
      obtain ⟨rfl, hending⟩ := h
      match answer with
      | .ok _ => rfl
      | .error (error, lease') => exact (hending error lease' rfl).inactive.symm
  | drop _ =>
      exact (follows_drop hN (.isActive lease)).bind fun _ left h => h
  | apply | reconcile | recoverStale | abandonJournal => exact absurd hreq (by simp [Request.lease])

end References

end Osdns
