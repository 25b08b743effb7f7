import Mathlib.Data.Multiset.AddSub
import Osdns.System.Keys

/-!
# Per-resource tokens

An operation works on a live record with the token of its resource locked.  Every operation gives
back each token it locks, whatever its calls are answered, so when nothing runs every token is
free.
-/

namespace Osdns

open Interaction
open Interaction.Fallible (ask value attempt)

variable {D I α β : Type}

/-! ## The discipline of tokens -/

/-- The calls that lock or unlock a token. -/
def ManagerOp.isToken : ManagerOp D I → Bool
  | .tokenLock _ => true
  | .tokenUnlock _ => true
  | _ => false

/-- The discipline of the tokens.  Its state is the tokens the party has locked. -/
def tokenDiscipline : Discipline (ManagerRet D I) (Multiset Token) where
  allows _ _ := True
  expects _ _ _ := True
  next held o _ :=
    match o with
    | .tokenLock token => token ::ₘ held
    | .tokenUnlock token => held.erase token
    | _ => held

/-- The program gives back the tokens it locks. -/
abbrev Balanced (p : Managed D I α) : Prop := p.Keeps tokenDiscipline fun _ => True

namespace Balanced

lemma done (a : α) : Balanced (.done a : Managed D I α) := Program.Keeps.done trivial

lemma call {o : ManagerOp D I} {k : ManagerRet D I o → Managed D I α} (ho : o.isToken = false)
    (hk : ∀ r, Balanced (k r)) : Balanced (.call o k) := by
  refine Program.Keeps.call fun held => ⟨trivial, fun r _ => ⟨?_, hk r⟩⟩
  cases o with
  | tokenLock | tokenUnlock => exact absurd ho (by simp [ManagerOp.isToken])
  | _ => rfl

lemma bind {p : Managed D I α} {f : α → Managed D I β} (hp : Balanced p)
    (hf : ∀ a, Balanced (f a)) : Balanced (p.bind f) :=
  Program.Keeps.bind hp fun a _ => hf a

lemma value {p : Managed D I α} {k : α → ManagedResult D I β} (hp : Balanced p)
    (hk : ∀ a, Balanced (k a).run) : Balanced (Fallible.value p >>= k).run :=
  Fallible.keeps_value hp fun a _ => hk a

lemma andThen {p : ManagedResult D I α} {k : α → ManagedResult D I β} (hp : Balanced p.run)
    (hk : ∀ a, Balanced (k a).run) : Balanced (p >>= k).run :=
  Fallible.keeps_bind (hp.mono fun _ _ _ _ => trivial) (fun a _ => hk a) fun _ => trivial

lemma engine (p : Engine D I α) : Balanced (Osdns.engine p) := by
  induction p with
  | done a => exact .done a
  | call o k ih => exact .call rfl ih

/-- A token locked around a program. -/
lemma locked {token : Token} {f : Managed D I α} {k : α → Managed D I β} (hf : Balanced f)
    (hk : ∀ a, Balanced (k a)) : Balanced (.call (.tokenLock token) fun _ => f.bind fun a =>
      .call (.tokenUnlock token) fun _ => k a) := by
  refine fun held => ⟨trivial, fun _ _ => Program.Follows.bind (hf (token ::ₘ held)) fun a _ h => ?_⟩
  obtain ⟨rfl, -⟩ := h
  refine ⟨trivial, fun _ _ => ?_⟩
  change (k a).Follows _ _ ((token ::ₘ held).erase token)
  rw [Multiset.erase_cons_head]
  exact hk a held

end Balanced

/-! ## Every operation is balanced -/

section Operations

variable {M : Manager D} {B : Backend D}

lemma balanced_withLiveRecord (ref : LiveRef) {f : Managed D I α} (hf : Balanced f) :
    Balanced (withLiveRecord ref f) := by
  refine .call rfl fun token => ?_
  have hbody : Balanced (do
      Managed.enterSection ref
      let result ← f
      Managed.leaveSection ref
      return result) := .call rfl fun _ => hf.bind fun _ => .call rfl fun _ => .done _
  have hlocked : Balanced (.call (.tokenLock token) fun _ => Program.bind _ fun a =>
      .call (.tokenUnlock token) fun _ => .done a) := .locked hbody .done
  simpa only [Managed.tokenLock, Managed.enterSection, Managed.leaveSection, Managed.tokenUnlock,
    Program.bind_eq, Program.call_bind, Program.done_bind, Program.bind_assoc,
    Program.pure_eq_done] using hlocked

lemma balanced_releaseAll (resources : List ResourceId) :
    Balanced (releaseAll resources : Managed D I _) := by
  induction resources with
  | nil => exact .done _
  | cons resource resources ih => exact .call rfl fun _ => ih

lemma balanced_unregisterActive (resource : ResourceId) :
    Balanced (unregisterActive resource : Managed D I _) :=
  .call rfl fun _ => .call rfl fun _ => .call rfl fun _ => .done _

lemma balanced_teardown {step : LiveRef → Managed D I (Except Error Unit)}
    (hstep : ∀ ref, Balanced (step ref)) (refs : List LiveRef) (locks : List ResourceId) :
    Balanced (teardown step refs locks) := by
  induction refs generalizing locks with
  | nil => exact .done _
  | cons ref refs ih =>
      refine (balanced_withLiveRecord ref ((balanced_unregisterActive _).bind fun _ =>
        (hstep ref).bind fun answer => ?_)).bind fun answer => ?_
      · match answer with
        | .ok _ => exact (balanced_releaseAll _).bind fun _ => .done _
        | .error error => exact .done _
      · match answer with
        | .ok _ => exact ih _
        | .error error => exact (ih _).bind fun _ => .done _

lemma balanced_releaseEnforceWatch : Balanced (releaseEnforceWatch M : Managed D I _) := by
  unfold releaseEnforceWatch
  split
  · exact .done _
  · exact .call rfl fun _ => .done _

/-- The end of `restoreState` and `abandonState`. -/
lemma balanced_tornDown (lease : Lease) (state : LiveLease) (phase : LeasePhase)
    {step : LiveRef → Managed D I (Except Error Unit)} (hstep : ∀ ref, Balanced (step ref)) :
    Balanced (do
      let result ← teardown step state.live state.locks
      if state.phase = .active then releaseEnforceWatch M
      match result.error with
      | none =>
          releaseAll result.locks
          return (.ok (), { lease with state := none })
      | some error =>
          return (.error error, { lease with state := some ⟨result.live, result.locks, phase⟩ }) :
      Managed D I (Except Error Unit × Lease)) := by
  refine (balanced_teardown hstep _ _).bind fun result => ?_
  have hend : Balanced (match result.error with
      | none => do
          releaseAll result.locks
          return (.ok (), { lease with state := none })
      | some error =>
          return (.error error, { lease with state := some ⟨result.live, result.locks, phase⟩ }) :
      Managed D I (Except Error Unit × Lease)) := by
    cases result.error with
    | none => exact (balanced_releaseAll _).bind fun _ => .done _
    | some error => exact .done _
  dsimp only
  split
  · exact balanced_releaseEnforceWatch.bind fun _ => hend
  · exact hend

lemma balanced_restore (lease : Lease) : Balanced (lease.restore M : Managed D I _) := by
  refine Balanced.bind ?_ fun answer => ?_
  · unfold Lease.restoreState
    split
    · exact .done _
    · exact balanced_tornDown lease _ .restoring fun ref => .engine _
  · split <;> exact .done _

lemma balanced_abandonRecord (ref : LiveRef) : Balanced (abandonRecord ref : Managed D I _) :=
  (Balanced.engine _).bind fun _ => .engine _

lemma balanced_abandon (lease : Lease) : Balanced (lease.abandon M : Managed D I _) := by
  refine Balanced.bind ?_ fun answer => ?_
  · unfold Lease.abandonState
    split
    · exact .done _
    · exact balanced_tornDown lease _ .abandoning balanced_abandonRecord
  · split <;> exact .done _

lemma balanced_drop (lease : Lease) : Balanced (lease.drop M : Managed D I _) := by
  have hrecords : ∀ (phase : LeasePhase) (refs : List LiveRef),
      Balanced (dropRecords M phase refs : Managed D I _) := by
    intro phase refs
    induction refs with
    | nil => exact .done _
    | cons ref refs ih =>
        refine (balanced_withLiveRecord ref ?_).bind fun _ => ih
        split
        · exact (balanced_abandonRecord ref).bind fun _ => balanced_unregisterActive _
        · exact (Balanced.engine _).bind fun _ => balanced_unregisterActive _
  unfold Lease.drop
  split
  · exact .done _
  · refine (hrecords _ _).bind fun _ => (balanced_releaseAll _).bind fun _ => ?_
    split
    · exact balanced_releaseEnforceWatch
    · exact .done _

/-! ### Update -/

lemma balanced_allRegistered (refs : List LiveRef) :
    Balanced (allRegistered refs : Managed D I _) := by
  induction refs with
  | nil => exact .done _
  | cons ref refs ih =>
      refine .call rfl fun answer => ?_
      match answer with
      | some _ => exact ih
      | none => exact .done _

lemma balanced_checkIdentities (refs : List LiveRef) :
    Balanced (checkIdentities M refs : ManagedResult D I _).run := by
  induction refs with
  | nil => exact .done _
  | cons ref refs ih =>
      refine .value (.engine _) fun live => .andThen (.engine _) fun status => ?_
      cases status with
      | same => exact ih
      | gone | replaced | ambiguous => exact .done _

lemma balanced_getTokens (resources : List ResourceId) :
    Balanced (getTokens resources : Managed D I _) := by
  induction resources with
  | nil => exact .done _
  | cons resource resources ih => exact .call rfl fun _ => ih.bind fun _ => .done _

lemma balanced_enterSections (refs : List LiveRef) :
    Balanced (enterSections refs : Managed D I _) := by
  induction refs with
  | nil => exact .done _
  | cons ref refs ih => exact .call rfl fun _ => ih

lemma balanced_leaveSections (refs : List LiveRef) :
    Balanced (leaveSections refs : Managed D I _) := by
  induction refs with
  | nil => exact .done _
  | cons ref refs ih => exact .call rfl fun _ => ih

lemma follows_lockTokens (tokens : List Token) (held : Multiset Token) :
    (lockTokens tokens : Managed D I _).Follows tokenDiscipline (fun _ t => t = held + tokens) held := by
  induction tokens generalizing held with
  | nil => exact (Multiset.add_zero held).symm
  | cons token tokens ih =>
      refine ⟨trivial, fun _ _ => (ih (token ::ₘ held)).mono fun _ t h => ?_⟩
      rw [h, Multiset.cons_add, ← Multiset.cons_coe, Multiset.add_cons]

lemma follows_unlockTokens (tokens : List Token) (held : Multiset Token) :
    (unlockTokens tokens : Managed D I _).Follows tokenDiscipline (fun _ t => t = held)
      (held + tokens) := by
  induction tokens generalizing held with
  | nil => exact Multiset.add_zero held
  | cons token tokens ih =>
      refine ⟨trivial, fun _ _ => ?_⟩
      change (unlockTokens tokens).Follows _ _ (((held + (token :: tokens : List Token)) : Multiset Token).erase token)
      rw [← Multiset.cons_coe, Multiset.add_cons, Multiset.erase_cons_head]
      exact ih held

lemma balanced_updateLocked (live : List LiveRef) (owned : List ResourceId)
    (plan : NormalizedConfig) :
    Balanced (updateLocked M live owned plan : ManagedResult D I _).run := by
  refine .value (balanced_getTokens owned) fun tokens => fun held => ?_
  refine Fallible.follows_value (follows_lockTokens tokens held) fun _ t ht => ?_
  subst ht
  refine Fallible.follows_value (balanced_enterSections live _) fun _ t ht => ?_
  obtain ⟨rfl, -⟩ := ht
  refine Fallible.follows_value (Balanced.engine _ _) fun result t ht => ?_
  obtain ⟨rfl, -⟩ := ht
  refine Fallible.follows_value (balanced_leaveSections live _) fun _ t ht => ?_
  obtain ⟨rfl, -⟩ := ht
  refine Fallible.follows_value (follows_unlockTokens tokens held) fun _ t ht => ?_
  subst ht
  exact ⟨trivial, fun _ _ => ⟨rfl, trivial⟩⟩

lemma balanced_update (lease : Lease) (config : DnsConfig) :
    Balanced (lease.update M config : ManagedResult D I _).run := by
  refine .andThen (.done _) fun plan => .andThen (.done _) fun _ => ?_
  cases lease.state with
  | none => exact .done _
  | some state =>
      refine .value (balanced_allRegistered state.live) fun registered => ?_
      dsimp only
      split
      · exact .done _
      · refine .andThen (balanced_checkIdentities state.live) fun _ => ?_
        refine .andThen (.call rfl fun _ => .done _) fun wanted => ?_
        split
        · exact .done _
        · exact balanced_updateLocked state.live _ plan

/-! ### Apply and recovery -/

lemma balanced_acquireSorted (held resources : List ResourceId) :
    Balanced (acquireSorted held resources : ManagedResult D I _).run := by
  induction resources generalizing held with
  | nil => exact .done _
  | cons resource resources ih =>
      refine .call rfl fun answer => ?_
      match answer with
      | .ok _ => exact ih _
      | .error error => exact .value (balanced_releaseAll held) fun _ => .done _

lemma balanced_recoverResources (journals : List (JournalRecord D I))
    (resources : List ResourceId) :
    Balanced (recoverResources M journals resources).run := by
  induction resources generalizing journals with
  | nil => exact .done _
  | cons resource resources ih =>
      unfold recoverResources
      split
      · exact ih _
      · refine .value (.engine _) fun answer => ?_
        match answer with
        | .ok _ => exact ih _
        | .error (.journal error) => exact .done _
        | .error (.conflict detail) => exact .done _

lemma balanced_applyLocked (plan : NormalizedConfig) (resources : List ResourceId) :
    Balanced (applyLocked M plan resources : ManagedResult D I _).run := by
  refine .andThen (.engine _) fun _ => .andThen (.engine _) fun journals => ?_
  refine .andThen (balanced_recoverResources journals resources) fun _ => ?_
  refine .andThen (.engine _) fun _ => .andThen (.engine _) fun _ => ?_
  exact .andThen (.engine _) fun _ => .engine _

lemma balanced_registerAll (refs : List LiveRef) :
    Balanced (registerAll refs : Managed D I _) := by
  induction refs with
  | nil => exact .done _
  | cons ref refs ih => exact .call rfl fun _ => ih

lemma balanced_activateLease (prepared : PreparedLease) (locks : List ResourceId) :
    Balanced (activateLease M prepared locks : ManagedResult D I _).run := by
  refine .value ((balanced_registerAll _).bind fun _ => .done _) fun lease => ?_
  have hwatch : Balanced (ensureEnforceWatch M : ManagedResult D I _).run := by
    unfold ensureEnforceWatch
    split
    · exact .done _
    · split
      · exact .done _
      · exact .call rfl fun _ => .done _
  refine .value hwatch fun answer => ?_
  match answer with
  | .ok _ => exact .value (.call rfl fun _ => .done _) fun _ => .done _
  | .error error =>
      refine .value (balanced_restore lease) fun answer => ?_
      match answer with
      | .ok _ => exact .done _
      | .error (failure, lease) => exact .value (balanced_drop lease) fun _ => .done _

lemma balanced_apply (config : DnsConfig) :
    Balanced (M.apply config : ManagedResult D I _).run := by
  refine .andThen (.done _) fun plan => .andThen (.done _) fun _ => ?_
  refine .andThen (.engine _) fun _ => .andThen (.call rfl fun _ => .done _) fun resources => ?_
  refine .andThen (.engine _) fun _ => .andThen (balanced_acquireSorted [] _) fun locks => ?_
  refine .value (balanced_applyLocked plan resources) fun answer => ?_
  match answer with
  | .ok prepared => exact balanced_activateLease prepared locks
  | .error error => exact .value (balanced_releaseAll locks) fun _ => .done _

lemma balanced_recoverStale : Balanced (M.recoverStale : ManagedResult D I _).run := by
  have hrecords : ∀ records : List (JournalRecord D I), Balanced (recoverStaleRecords M records) := by
    intro records
    induction records with
    | nil => exact .done _
    | cons record records ih =>
        refine Balanced.bind ?_ fun _ => ih.bind fun _ => .done _
        unfold recoverStaleRecord
        split
        · exact .done _
        · refine .call rfl fun answer => ?_
          match answer with
          | .ok true =>
              refine (Balanced.engine _).bind fun result => .call rfl fun _ => ?_
              cases result <;> exact .done _
          | .ok false => exact .done _
          | .error error => cases error <;> exact .done _
  exact .andThen (.engine _) fun records => (hrecords records).bind fun _ => .done _

lemma balanced_abandonJournal (resource : ResourceId) :
    Balanced (M.abandonJournal resource : ManagedResult D I _).run := by
  have hrecords : ∀ records : List (JournalRecord D I),
      Balanced (abandonRecords resource records : Managed D I _) := by
    intro records
    induction records with
    | nil => exact .done _
    | cons record records ih =>
        refine (Balanced.engine _).bind fun answer => ?_
        match answer with
        | .ok _ => exact ih
        | .error error => exact .done _
  have hrelease : ∀ result : Except Error Unit, Balanced (do
      value (Managed.release resource)
      ask (pure result) : ManagedResult D I Unit).run := fun result =>
    .call rfl fun _ => .done _
  refine .andThen (.call rfl fun _ => .done _) fun _ => .value (.engine _) fun answer => ?_
  match answer with
  | .error error => exact hrelease _
  | .ok all =>
      dsimp only
      split
      · exact hrelease _
      · exact .value (hrecords _) hrelease

/-! ### Passes -/

lemma balanced_passReadback (ref : LiveRef) : Balanced (passReadback ref : Managed D I _) := by
  refine (Balanced.engine _).bind fun answer => ?_
  match answer with
  | .ok snapshot => exact .done _
  | .error error =>
      cases error with
      | resourceGone backend resource message =>
          refine (Balanced.engine _).bind fun live => (Balanced.engine _).bind fun answer => ?_
          match answer with
          | .ok _ => exact (balanced_unregisterActive _).bind fun _ => .done _
          | .error error => exact .done _
      | _ => exact .done _

lemma balanced_reconcileStable (ref : LiveRef) (second : PlatformSnapshot D) :
    Balanced (reconcileStable B ref second : Managed D I _) := by
  refine (Balanced.engine _).bind fun live => ?_
  split
  · exact .done _
  split
  · split
    · exact .done _
    · exact .engine _
  split
  · exact .call rfl fun _ => .done _
  split
  · exact .engine _
  refine .call rfl fun answer => ?_
  match answer with
  | some cooldown => exact .call rfl fun _ => .done _
  | none => exact .engine _

lemma balanced_reconcilePass (ref : LiveRef) :
    Balanced (reconcilePass B ref : Managed D I _) := by
  refine (Balanced.engine _).bind fun resolved => (Balanced.engine _).bind fun live => ?_
  split
  · exact .done _
  refine (balanced_passReadback ref).bind fun answer => ?_
  match answer with
  | .error outcome => exact .done _
  | .ok first =>
      refine .call rfl fun _ => (balanced_passReadback ref).bind fun answer => ?_
      match answer with
      | .error outcome => exact .done _
      | .ok second =>
          dsimp only
          split
          · exact .done _
          · exact balanced_reconcileStable ref second

/-- The end of a pass over a native resource whose lifetime ended. -/
lemma balanced_lifetimeEnded (ref : LiveRef) (live : LiveRecord D I) : Balanced (do
    match ← engine (Engine.journalRemove live.record.leaseId ref.resource .lifetime) with
    | .ok _ =>
        unregisterActive ref.resource
        Managed.reconcilerRemove ref.resource
        return .noActiveLease
    | .error _ =>
        Managed.defer ref.resource errorRetry true
        return .failed : Managed D I ReconcileOutcome) := by
  refine (Balanced.engine _).bind fun answer => ?_
  cases answer with
  | ok _ => exact (balanced_unregisterActive _).bind fun _ => .call rfl fun _ => .done _
  | error error => exact .call rfl fun _ => .done _

lemma balanced_reconcileEntry (ref : LiveRef) :
    Balanced (reconcileEntry B ref : Managed D I _) := by
  refine .call rfl fun generation => (Balanced.engine _).bind fun live =>
    (Balanced.engine _).bind fun answer => ?_
  cases answer with
  | error error => exact .call rfl fun _ => .done _
  | ok status =>
      cases status with
      | ambiguous => exact .call rfl fun _ => .done _
      | gone => exact balanced_lifetimeEnded ref live
      | replaced => exact balanced_lifetimeEnded ref live
      | same =>
          refine (balanced_reconcilePass ref).bind fun outcome => ?_
          cases outcome with
          | identityAmbiguous => exact .done _
          | _ => exact .call rfl fun _ => .done _

lemma balanced_reconcileResource (resource : ResourceId) :
    Balanced (reconcileResource B resource : Managed D I _) := by
  refine .call rfl fun answer => ?_
  match answer with
  | none => exact .call rfl fun _ => .done _
  | some _ =>
      refine .call rfl fun token => ?_
      -- Both ways out of the entry unlock the token they were reached with.
      refine fun held => ⟨trivial, fun _ _ => ⟨trivial, fun answer _ => ?_⟩⟩
      have herase : (token ::ₘ held).erase token = held := Multiset.erase_cons_head _ _
      match answer with
      | none => exact ⟨trivial, fun _ _ => ⟨trivial, fun _ _ => ⟨herase, trivial⟩⟩⟩
      | some lease =>
          refine ⟨trivial, fun _ _ => ?_⟩
          change Program.Follows _ ((reconcileEntry B ⟨lease, resource⟩).bind _) _ (token ::ₘ held)
          refine Program.Follows.bind (balanced_reconcileEntry ⟨lease, resource⟩ _)
            fun outcome t ht => ?_
          obtain ⟨rfl, -⟩ := ht
          exact ⟨trivial, fun _ _ => ⟨trivial, fun _ _ => ⟨herase, trivial⟩⟩⟩

lemma balanced_reconcilePassGated (resource : ResourceId) :
    Balanced (reconcilePassGated B resource : Managed D I _) :=
  .call rfl fun _ => (balanced_reconcileResource resource).bind fun _ => .call rfl fun _ => .done _

end Operations

/-! ## Tokens of sessions -/

lemma balanced_onLease {M : FakeManager} (lease : Lease) (request : Request) :
    Balanced (request.onLease M lease) := by
  cases request with
  | update _ config => exact (balanced_update lease config).bind fun _ => .done _
  | restore _ => exact (balanced_restore lease).bind fun _ => .done _
  | abandon _ => exact (balanced_abandon lease).bind fun _ => .done _
  | drop _ => exact (balanced_drop lease).bind fun _ => .done _
  | _ => exact .done _

lemma balanced_alone {M : FakeManager} (request : Request) : Balanced (request.alone M) := by
  cases request with
  | apply config => exact (balanced_apply config).bind fun _ => .done _
  | reconcile resource => exact (balanced_reconcilePassGated resource).bind fun _ => .done _
  | recoverStale => exact balanced_recoverStale.bind fun _ => .done _
  | abandonJournal resource => exact (balanced_abandonJournal resource).bind fun _ => .done _
  | _ => exact .done _

namespace World

variable {w w' : World} {F : Faults} {i : SessionId} {m : ManagerId}
variable {o : ManagerOp FakeSnapshotData FakeIdentity}
variable {answer : ManagerRet FakeSnapshotData FakeIdentity o}

@[simp] lemma account_tokens (w : World) (o : ManagerOp FakeSnapshotData FakeIdentity) :
    (w.account o).tokens = w.tokens := by
  unfold account
  split <;> rfl

/-- Only the calls that lock or unlock a token change who holds it. -/
lemma handler_tokens (h : World.handler F i m o w answer w') (ho : o.isToken = false) :
    w'.tokens = w.tokens := by
  obtain ⟨fate, -, hx⟩ := h
  unfold exec at hx
  split at hx
  · obtain ⟨⟨a, c⟩, -, hx⟩ := Option.map_eq_some_iff.mp hx
    rw [← (Prod.mk.inj hx).2, account_tokens]
    rfl
  · rename_i ht
    cases o with
    | engine o =>
        cases o with
        | fire | journalRecords =>
            cases fate <;> simp only [execGlobal, Option.some.injEq, Prod.mk.injEq] at hx <;>
              rw [← hx.2]
        | newLeaseId =>
            simp only [execGlobal, Option.some.injEq, Prod.mk.injEq] at hx
            rw [← hx.2]
        | _ => cases ht
    | resolveResources =>
        cases fate <;> simp only [execGlobal, Option.some.injEq, Prod.mk.injEq] at hx <;>
          rw [← hx.2]
    | tokenLock | tokenUnlock => exact absurd ho (by simp [ManagerOp.isToken])
    | gateLock =>
        cases hk : w.gate m with
        | some holder => simp [execGlobal, hk] at hx
        | none =>
            simp only [execGlobal, hk, Option.some.injEq, Prod.mk.injEq] at hx
            rw [← hx.2]
    | gateUnlock | sleep | enforceEnsure | enforceRelease =>
        simp only [execGlobal, Option.some.injEq, Prod.mk.injEq] at hx
        rw [← hx.2]
    | rescanEnforce =>
        simp only [execGlobal, Option.some.injEq, Prod.mk.injEq] at hx
        rw [← hx.2]
        split <;> rfl
    | _ => cases ht

/-- A token that is held after a call was held before, or was just locked. -/
lemma handler_holder (h : World.handler F i m o w answer w') {m' : ManagerId} {token : Token}
    {j : SessionId} (hj : w'.tokens m' token = some j) :
    (w.tokens m' token = some j ∧ ∀ unlocked, o = .tokenUnlock unlocked →
        m' = m → token ≠ unlocked) ∨
      (j = i ∧ m' = m ∧ o = .tokenLock token) := by
  by_cases ho : o.isToken = false
  · rw [handler_tokens h ho] at hj
    exact .inl ⟨hj, fun unlocked hu => absurd ho (by simp [hu, ManagerOp.isToken])⟩
  obtain ⟨fate, -, hx⟩ := h
  cases o with
  | tokenLock locked =>
      cases hk : w.tokens m locked with
      | some holder => simp [exec, ManagerOp.target, execGlobal, hk] at hx
      | none =>
          simp only [exec, ManagerOp.target, execGlobal, hk, Option.some.injEq, Prod.mk.injEq] at hx
          rw [← hx.2] at hj
          by_cases hm : m' = m
          · subst hm
            by_cases ht : token = locked
            · subst ht
              simp only [setToken, Function.update_self, Option.some.injEq] at hj
              exact .inr ⟨hj.symm, rfl, rfl⟩
            · refine .inl ⟨?_, fun _ he => absurd he (by simp)⟩
              simpa [setToken, ht] using hj
          · refine .inl ⟨?_, fun _ he => absurd he (by simp)⟩
            simpa [setToken, hm] using hj
  | tokenUnlock unlocked =>
      simp only [exec, ManagerOp.target, execGlobal, Option.some.injEq, Prod.mk.injEq] at hx
      rw [← hx.2] at hj
      refine .inl ⟨?_, ?_⟩
      · by_cases hm : m' = m
        · subst hm
          by_cases ht : token = unlocked
          · subst ht
            simp [setToken] at hj
          · simpa [setToken, ht] using hj
        · simpa [setToken, hm] using hj
      · intro unlocked' he hm ht
        obtain rfl := ManagerOp.tokenUnlock.inj he
        subst hm ht
        simp [setToken] at hj
  | _ => exact absurd rfl ho

end World

namespace System

variable {S : Setup} {s t : System}

/-- Whoever holds a token is a running session that will give it back. -/
structure TokensHeld (s : System) (held : SessionId → Multiset Token) : Prop where
  follows : ∀ i session, s.sessions i = some session →
    session.program.Follows tokenDiscipline (fun _ left => left = 0) (held i)
  holder : ∀ m token i, s.world.tokens m token = some i →
    ∃ session, s.sessions i = some session ∧ session.manager = m ∧ token ∈ held i

namespace TokensHeld

variable {held : SessionId → Multiset Token}

lemma init (h : Initial s) : s.TokensHeld fun _ => 0 :=
  ⟨fun i _ hi => absurd hi (by simp [h.sessions i]),
    fun m token _ ht => absurd ht (by simp [h.tokens m token])⟩

lemma spawn {session : Session} (h : s.TokensHeld held) (hnext : s.sessions s.next = none)
    (hp : Balanced session.program) :
    (s.spawn session).TokensHeld (Function.update held s.next 0) where
  follows i a hi := by
    by_cases hn : i = s.next
    · subst hn
      rw [Function.update_self]
      simp only [System.spawn, Function.update_self, Option.some.injEq] at hi
      subst hi
      exact (hp 0).mono fun _ _ hleft => hleft.1
    · rw [Function.update_of_ne hn]
      exact h.follows i a (by simpa [System.spawn, hn] using hi)
  holder m token i ht := by
    obtain ⟨a, ha, hm, hmem⟩ := h.holder m token i ht
    have hn : i ≠ s.next := by
      rintro rfl
      exact absurd (hnext.symm.trans ha) (by simp)
    exact ⟨a, by simpa [System.spawn, hn] using ha, hm, by rwa [Function.update_of_ne hn]⟩

lemma call {i : SessionId} {session : Session} {o : ManagerOp FakeSnapshotData FakeIdentity}
    {k : ManagerRet FakeSnapshotData FakeIdentity o → FakeManaged Outcome}
    {answer : ManagerRet FakeSnapshotData FakeIdentity o} {w : World} (h : s.TokensHeld held)
    (running : s.sessions i = some session) (program : session.program = .call o k)
    (answered : World.handler S.faults i session.manager o s.world answer w) :
    TokensHeld { s with
      world := w
      sessions := Function.update s.sessions i (some { session with program := k answer }) }
      (Function.update held i (tokenDiscipline.next (held i) o answer)) where
  follows j a hj := by
    have hf := h.follows i session running
    rw [program] at hf
    by_cases hi : j = i
    · subst hi
      rw [Function.update_self]
      simp only [Function.update_self, Option.some.injEq] at hj
      subst hj
      exact hf.2 answer trivial
    · rw [Function.update_of_ne hi]
      exact h.follows j a (by simpa [hi] using hj)
  holder m token j hj := by
    rcases World.handler_holder answered hj with ⟨hold, hne⟩ | ⟨rfl, rfl, rfl⟩
    · obtain ⟨a, ha, rfl, hmem⟩ := h.holder m token j hold
      by_cases hi : j = i
      · subst hi
        obtain rfl := Option.some.inj (running.symm.trans ha)
        refine ⟨_, Function.update_self .., rfl, ?_⟩
        rw [Function.update_self]
        cases o with
        | tokenLock locked => exact Multiset.mem_cons_of_mem hmem
        | tokenUnlock unlocked =>
            exact (Multiset.mem_erase_of_ne (hne unlocked rfl rfl)).mpr hmem
        | _ => exact hmem
      · exact ⟨a, by simpa [hi] using ha, rfl, by rwa [Function.update_of_ne hi]⟩
    · refine ⟨_, Function.update_self .., rfl, ?_⟩
      rw [Function.update_self]
      exact Multiset.mem_cons_self _ _

lemma step (hkeyed : s.Keyed) (h : s.TokensHeld held) (hst : Step S s t) :
    ∃ held, t.TokensHeld held := by
  have hnext : s.sessions s.next = none := by
    cases hn : s.sessions s.next with
    | none => rfl
    | some session => exact absurd (hkeyed.started _ session hn).1 (lt_irrefl _)
  cases hst with
  | start m request claims => exact ⟨_, h.spawn hnext (balanced_alone request)⟩
  | startOn m request lease id =>
      have htaken : ({ s with leases := Function.update s.leases id none } : System).TokensHeld held :=
        ⟨h.follows, h.holder⟩
      exact ⟨_, htaken.spawn hnext (balanced_onLease lease request)⟩
  | call i session o k answer w running program claimed answered =>
      exact ⟨_, h.call running program answered⟩
  | finish i session outcome running program =>
      have hf := h.follows i session running
      rw [program] at hf
      refine ⟨held, fun j a hj => ?_, fun m token j hj => ?_⟩
      · by_cases hi : j = i
        · subst hi
          simp [System.finish] at hj
        · exact h.follows j a (by simpa [System.finish, hi] using hj)
      · obtain ⟨a, ha, hm, hmem⟩ := h.holder m token j hj
        have hi : j ≠ i := by
          rintro rfl
          exact absurd hmem (by simp [show held j = 0 from hf])
        exact ⟨a, by simpa [System.finish, hi] using ha, hm, hmem⟩
  | environment w henv =>
      have htokens : w.tokens = s.world.tokens := by cases henv <;> rfl
      exact ⟨held, h.follows, fun m token i hi => h.holder m token i (htokens ▸ hi)⟩
  | crash m =>
      refine ⟨held, fun i a hi => ?_, fun m' token i hi => ?_⟩
      · exact h.follows i a (Option.filter_eq_some_iff.mp hi).1
      · by_cases hm : m' = m
        · subst hm
          simp [World.crash] at hi
        · obtain ⟨a, ha, rfl, hmem⟩ := h.holder m' token i (by simpa [World.crash, hm] using hi)
          exact ⟨a, Option.filter_eq_some_iff.mpr ⟨ha, by simpa using hm⟩, rfl, hmem⟩

/-- In every reachable state, whoever holds a token is running. -/
theorem reachable (h : Reachable S s) : ∃ held, s.TokensHeld held := by
  induction h with
  | init hi => exact ⟨_, .init hi⟩
  | step h hst ih =>
      obtain ⟨held, hheld⟩ := ih
      exact hheld.step (.reachable h) hst

end TokensHeld

/-- When nothing runs, every token is free. -/
lemma tokens_free (h : Reachable S s) (hquiet : ∀ i, s.sessions i = none) (m : ManagerId)
    (token : Token) : s.world.tokens m token = none := by
  obtain ⟨held, hheld⟩ := TokensHeld.reachable h
  cases ht : s.world.tokens m token with
  | none => rfl
  | some i =>
      obtain ⟨session, hs, -⟩ := hheld.holder m token i ht
      exact absurd ((hquiet i).symm.trans hs) (by simp)

end System

end Osdns
