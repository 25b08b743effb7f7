import Mathlib.Data.Set.Card
import Mathlib.Tactic.IntervalCases
import Osdns.Enforce.References
import Osdns.System.Execution

/-!
# When the Enforce observation is kept

The reference count of an Enforce manager against the leases it stands for.  `Referenced` is the
invariant: the count is the number of leases that some party counts, and each party follows the
discipline of `Enforce/References.lean`.  It holds along every run in which the cleanup of a
failed `apply` gives nothing back that is counted for another lease.

Without that condition it fails: `observation_lost` is a run that ends with an active lease and no
observation.
-/

namespace Osdns

open Interaction

/-! ## The reference count in the world -/

section World

variable {F : Faults} {i : SessionId} {m : ManagerId} {w w' : World}

/-- Only two calls change an Enforce observation. -/
lemma World.handler_unwatched {o : ManagerOp FakeSnapshotData FakeIdentity}
    {answer : ManagerRet FakeSnapshotData FakeIdentity o}
    (h : World.handler F i m o w answer w') (ho : o.isWatch = false) : w'.enforce = w.enforce := by
  obtain ⟨fate, -, h⟩ := h
  unfold World.exec at h
  cases ht : o.target with
  | some r =>
      simp only [ht, Option.map_eq_some_iff, Prod.mk.injEq] at h
      obtain ⟨⟨a, c⟩, -, -, rfl⟩ := h
      cases o with
      | engine o => cases o <;> rfl
      | _ => rfl
  | none =>
      simp only [ht] at h
      cases o with
      | engine o =>
          cases o <;> cases fate <;> simp [World.execGlobal] at h <;> obtain ⟨-, rfl⟩ := h <;> rfl
      | resolveResources scope plan =>
          cases fate <;> simp [World.execGlobal] at h <;> obtain ⟨-, rfl⟩ := h <;> rfl
      | tokenLock token =>
          simp only [World.execGlobal] at h
          split at h
          · exact absurd h (by simp)
          · obtain ⟨-, rfl⟩ := Prod.mk.inj (Option.some.inj h)
            rfl
      | gateLock =>
          simp only [World.execGlobal] at h
          split at h
          · exact absurd h (by simp)
          · obtain ⟨-, rfl⟩ := Prod.mk.inj (Option.some.inj h)
            rfl
      | rescanEnforce =>
          simp only [World.execGlobal, Option.some.injEq, Prod.mk.injEq] at h
          obtain ⟨-, rfl⟩ := h
          split <;> rfl
      | enforceEnsure | enforceRelease => exact absurd ho (by simp [ManagerOp.isWatch])
      | tokenUnlock | gateUnlock | sleep =>
          obtain ⟨-, rfl⟩ := Prod.mk.inj (Option.some.inj h)
          rfl
      | _ => exact absurd h (by simp [World.execGlobal])

lemma World.handler_ensure {answer : Except Error Unit}
    (h : World.handler F i m .enforceEnsure w answer w') :
    ∃ started, answer = ((w.enforce m).ensure started).1 ∧
      w'.enforce = Function.update w.enforce m ((w.enforce m).ensure started).2 := by
  obtain ⟨fate, -, h⟩ := h
  simp only [World.exec, ManagerOp.target, World.execGlobal, Option.some.injEq,
    Prod.mk.injEq] at h
  obtain ⟨rfl, rfl⟩ := h
  exact ⟨_, rfl, rfl⟩

lemma World.handler_release {answer : Unit} (h : World.handler F i m .enforceRelease w answer w') :
    w'.enforce = Function.update w.enforce m (w.enforce m).release := by
  obtain ⟨fate, -, h⟩ := h
  simp only [World.exec, ManagerOp.target, World.execGlobal, Option.some.injEq,
    Prod.mk.injEq] at h
  rw [← h.2]

/-- A call changes the Enforce observation of its own manager only. -/
lemma World.handler_enforce_other {o : ManagerOp FakeSnapshotData FakeIdentity}
    {answer : ManagerRet FakeSnapshotData FakeIdentity o} {m' : ManagerId}
    (h : World.handler F i m o w answer w') (hne : m' ≠ m) : w'.enforce m' = w.enforce m' := by
  by_cases ho : o.isWatch = false
  · rw [World.handler_unwatched h ho]
  rw [Bool.not_eq_false] at ho
  cases o with
  | enforceEnsure =>
      obtain ⟨started, -, henforce⟩ := World.handler_ensure h
      rw [henforce, Function.update_of_ne hne]
  | enforceRelease => rw [World.handler_release h, Function.update_of_ne hne]
  | _ => exact absurd ho (by simp [ManagerOp.isWatch])

/-- What happens besides sessions does not touch Enforce observations. -/
lemma World.Environment.enforce (h : World.Environment w w') : w'.enforce = w.enforce := by
  cases h <;> rfl

end World

/-- Taking a reference raises the count by one, or fails and changes nothing. -/
lemma EnforceState.ensure_cases {e : EnforceState} (started : Except Error Unit)
    (hfeed : e.refs ≠ 0 → e.feed = true) :
    ((e.ensure started).1 = .ok () ∧ (e.ensure started).2.refs = e.refs + 1 ∧
        (e.ensure started).2.feed = true) ∨
      ((∃ error, (e.ensure started).1 = .error error) ∧ (e.ensure started).2 = e) := by
  unfold EnforceState.ensure
  split
  · rename_i h
    cases started with
    | ok _ => exact .inl ⟨rfl, by rw [h], rfl⟩
    | error error => exact .inr ⟨⟨error, rfl⟩, rfl⟩
  · rename_i h
    exact .inl ⟨rfl, rfl, hfeed h⟩

/-- Giving a reference back lowers the count by one, and the feed lives as long as it is not 0. -/
lemma EnforceState.release_refs (e : EnforceState) : e.release.refs = e.refs - 1 := by
  unfold EnforceState.release
  split
  · rename_i h
    omega
  · split
    · rename_i h
      exact (by omega : e.refs - 1 = 0).symm
    · rfl

lemma EnforceState.release_feed {e : EnforceState} (hfeed : e.refs ≠ 0 → e.feed = true) :
    e.release.refs ≠ 0 → e.release.feed = true := by
  unfold EnforceState.release
  split
  · exact hfeed
  · rename_i h
    split
    · exact fun h => absurd rfl h
    · exact fun _ => hfeed h

/-! ## The invariant -/

/-- The session runs an `apply`. -/
def Session.isApply (session : Session) : Prop := ∃ config, session.request = .apply config

/-- Requests that neither create a lease nor tear one down. -/
def Request.isSteady : Request → Bool
  | .update _ _ => true
  | .reconcile _ => true
  | .recoverStale => true
  | .abandonJournal _ => true
  | _ => false

/-- The references of manager `m` are those of the leases in `H`, each counted by one party. -/
structure System.Referenced (m : ManagerId) (H : Finset LeaseId) (s : System) : Prop where
  count : (s.world.enforce m).refs = H.card
  feed : (s.world.enforce m).refs ≠ 0 → (s.world.enforce m).feed = true
  idle : ∀ K lease, s.leases K = some (m, lease) → (K ∈ H ↔ lease.isActive = true)
  running : ∀ i session, s.sessions i = some session → session.manager = m →
    session.program.Follows (references i session.isApply)
      (fun outcome left => left = outcome.isActive) (decide (session.key i ∈ H))
  steady : ∀ i session, s.sessions i = some session → session.manager = m →
    session.request.isSteady = true → Unwatched session.program ∧
      (session.key i ∈ H ↔ session.handle.any Lease.isActive = true)
  held : ∀ K ∈ H, (∃ lease, s.leases K = some (m, lease)) ∨
    ∃ i session, s.sessions i = some session ∧ session.manager = m ∧ session.key i = K

/-- A step in which no `apply` gives back a reference while one is counted. -/
structure System.PairedStep (S : Setup) (s t : System) : Prop where
  step : Step S s t
  paired : ∀ i session k, s.sessions i = some session → session.isApply →
    session.program = .call .enforceRelease k →
    t.sessions i = some { session with program := k () } →
    (s.world.enforce session.manager).refs = 0

lemma unwatched_alone {N : FakeManager} {request : Request} (h : request.isSteady = true) :
    Unwatched (request.alone N) := by
  cases request with
  | reconcile resource =>
      exact (unwatched_reconcilePassGated N.backend resource).bind fun _ => trivial
  | recoverStale => exact (unwatched_recoverStale N).bind fun _ => trivial
  | abandonJournal resource => exact (unwatched_abandonJournal N resource).bind fun _ => trivial
  | update => trivial
  | _ => exact absurd h (by simp [Request.isSteady])

lemma unwatched_onLease {N : FakeManager} {lease : Lease} {request : Request}
    (h : request.isSteady = true) : Unwatched (request.onLease N lease) := by
  cases request with
  | update L config => exact (unwatched_update N lease config).bind fun _ => trivial
  | reconcile | recoverStale | abandonJournal => trivial
  | _ => exact absurd h (by simp [Request.isSteady])

namespace System.Referenced

variable {S : Setup} {m : ManagerId} {H : Finset LeaseId} {s t : System}

lemma init (h : Initial s) : s.Referenced m ∅ := by
  refine ⟨?_, ?_, fun K lease hK => absurd hK (by simp [h.leases K]),
    fun i _ hi => absurd hi (by simp [h.sessions i]), fun i _ hi => absurd hi (by simp [h.sessions i]),
    fun K hK => absurd hK (by simp)⟩
  · rw [h.enforce m]
    rfl
  · rw [h.enforce m]
    exact fun h => absurd rfl h

/-- Every lease counted is of the past. -/
lemma lt_next (h : s.Referenced m H) (hkeyed : s.Keyed) {K : LeaseId} (hK : K ∈ H) : K < s.next := by
  rcases h.held K hK with ⟨lease, hl⟩ | ⟨i, session, hi, -, rfl⟩
  · exact (hkeyed.idle K _ hl).1
  · exact (hkeyed.started i session hi).2

/-- A new session of a party that counts what it must. -/
lemma spawn {u : System} {session : Session} (h : s.Referenced m H) (hkeyed : s.Keyed)
    (hworld : u.world = s.world) (hsessions : u.sessions = s.sessions) (hnext : u.next = s.next)
    (hidle : ∀ K lease, u.leases K = some (m, lease) → s.leases K = some (m, lease))
    (hmoved : ∀ K lease, s.leases K = some (m, lease) → u.leases K = some (m, lease) ∨
      session.manager = m ∧ session.key s.next = K)
    (hrun : session.manager = m → session.program.Follows (references s.next session.isApply)
      (fun outcome left => left = outcome.isActive) (decide (session.key s.next ∈ H)))
    (hsteady : session.manager = m → session.request.isSteady = true → Unwatched session.program ∧
      (session.key s.next ∈ H ↔ session.handle.any Lease.isActive = true)) :
    (u.spawn session).Referenced m H := by
  have hcases : ∀ i a, (u.spawn session).sessions i = some a →
      (i = s.next ∧ session = a) ∨ s.sessions i = some a := fun i a hi => by
    obtain ⟨hi, ha⟩ | ⟨-, hi⟩ := update_eq_some hi
    · exact .inl ⟨hi.trans hnext, Option.some.inj ha⟩
    · exact .inr (hsessions ▸ hi)
  have hnew : (u.spawn session).sessions s.next = some session := by
    simp [System.spawn, hnext]
  have hold : ∀ i a, s.sessions i = some a → (u.spawn session).sessions i = some a := by
    intro i a hi
    have hne : i ≠ u.next := hnext ▸ (hkeyed.started i a hi).1.ne
    simpa [System.spawn, hne, hsessions] using hi
  refine ⟨?_, ?_, fun K lease hK => h.idle K lease (hidle K lease hK), fun i a hi ha => ?_,
    fun i a hi ha hreq => ?_, fun K hK => ?_⟩
  · simpa [System.spawn, hworld] using h.count
  · simpa [System.spawn, hworld] using h.feed
  · rcases hcases i a hi with ⟨rfl, rfl⟩ | hi
    · exact hrun ha
    · exact h.running i a hi ha
  · rcases hcases i a hi with ⟨rfl, rfl⟩ | hi
    · exact hsteady ha hreq
    · exact h.steady i a hi ha hreq
  · rcases h.held K hK with ⟨lease, hl⟩ | ⟨i, a, hi, ha⟩
    · rcases hmoved K lease hl with hl | ⟨hm, hkey⟩
      · exact .inl ⟨lease, hl⟩
      · exact .inr ⟨s.next, session, hnew, hm, hkey⟩
    · exact .inr ⟨i, a, hold i a hi, ha⟩

/-- A call of a session of `m` that leaves the keys in `H'` counted: only its own may differ. -/
lemma resume {H' : Finset LeaseId} {i : SessionId} {session : Session} {p : FakeManaged Outcome}
    {w : World} (h : s.Referenced m H) (hkeyed : s.Keyed) (hi : s.sessions i = some session)
    (hm : session.manager = m) (hcount : (w.enforce m).refs = H'.card)
    (hfeed : (w.enforce m).refs ≠ 0 → (w.enforce m).feed = true)
    (hsame : ∀ K, K ≠ session.key i → (K ∈ H' ↔ K ∈ H))
    (hrun : p.Follows (references i session.isApply) (fun outcome left => left = outcome.isActive)
      (decide (session.key i ∈ H')))
    (hsteady : session.request.isSteady = true → Unwatched p ∧ H' = H) :
    System.Referenced m H' { s with
      world := w
      sessions := Function.update s.sessions i (some { session with program := p }) } := by
  have hother : ∀ j a, s.sessions j = some a → j ≠ i → (a.key j ∈ H' ↔ a.key j ∈ H) :=
    fun j a hj hne => hsame _ fun heq => hne (hkeyed.distinct j i a session hj hi heq)
  refine ⟨hcount, hfeed, fun K lease hK => ?_, fun j a hj ha => ?_, fun j a hj ha hreq => ?_,
    fun K hK => ?_⟩
  · rw [hsame K, h.idle K lease hK]
    rintro rfl
    exact absurd (hkeyed.taken i session hi) (by simp [show s.leases _ = _ from hK])
  · obtain ⟨rfl, rfl⟩ | ⟨hne, hj⟩ := (update_eq_some hj).imp (And.imp_right Option.some.inj) id
    · exact hrun
    · rw [show decide (a.key j ∈ H') = decide (a.key j ∈ H) from
        decide_eq_decide.mpr (hother j a hj hne)]
      exact h.running j a hj ha
  · obtain ⟨rfl, rfl⟩ | ⟨hne, hj⟩ := (update_eq_some hj).imp (And.imp_right Option.some.inj) id
    · obtain ⟨hp, rfl⟩ := hsteady hreq
      exact ⟨hp, (h.steady j session hi hm hreq).2⟩
    · obtain ⟨hp, hiff⟩ := h.steady j a hj ha hreq
      exact ⟨hp, (hother j a hj hne).trans hiff⟩
  · have hkey : Session.key { session with program := p } i = session.key i := rfl
    by_cases heq : K = session.key i
    · exact .inr ⟨i, _, Function.update_self .., hm, hkey.trans heq.symm⟩
    · rcases h.held K ((hsame K heq).mp hK) with ⟨lease, hl⟩ | ⟨j, a, hj, ha, hK⟩
      · exact .inl ⟨lease, hl⟩
      · refine .inr ⟨j, a, (Function.update_of_ne ?_ ..).trans hj, ha, hK⟩
        rintro rfl
        rw [hi, Option.some.injEq] at hj
        exact heq (hK.symm.trans (hj ▸ rfl))

/-- Nothing that belongs to `m` has changed. -/
lemma congr (h : s.Referenced m H) (henforce : t.world.enforce m = s.world.enforce m)
    (hleases : ∀ K lease, t.leases K = some (m, lease) ↔ s.leases K = some (m, lease))
    (hsessions : ∀ i session, session.manager = m →
      (t.sessions i = some session ↔ s.sessions i = some session)) :
    t.Referenced m H := by
  refine ⟨by rw [henforce]; exact h.count, by rw [henforce]; exact h.feed,
    fun K lease hK => h.idle K lease ((hleases K lease).mp hK),
    fun i a hi ha => h.running i a ((hsessions i a ha).mp hi) ha,
    fun i a hi ha => h.steady i a ((hsessions i a ha).mp hi) ha, fun K hK => ?_⟩
  rcases h.held K hK with ⟨lease, hl⟩ | ⟨i, a, hi, ha, hkey⟩
  · exact .inl ⟨lease, (hleases K lease).mpr hl⟩
  · exact .inr ⟨i, a, (hsessions i a ha).mpr hi, ha, hkey⟩

/-- A session that finishes leaves its reference to the handle it hands back. -/
lemma finish (h : s.Referenced m H) (hkeyed : s.Keyed) {i : SessionId} {session : Session}
    {outcome : Outcome} (hi : s.sessions i = some session) (hp : session.program = .done outcome) :
    (s.finish i session.manager outcome).Referenced m H := by
  have hands : outcome.Hands (session.key i) := by
    have hands := hkeyed.hands i session hi
    rwa [hp] at hands
  have hsub : ∀ j a, (s.finish i session.manager outcome).sessions j = some a →
      j ≠ i ∧ s.sessions j = some a := fun j a hj =>
    (update_eq_some hj).resolve_left fun h => absurd h.2 (by simp)
  have hleases : ∀ K entry, (s.finish i session.manager outcome).leases K = some entry ↔
      (s.leases K = some entry ∧ ∀ lease, outcome.handle = some lease → K ≠ session.key i) ∨
        ∃ lease, outcome.handle = some lease ∧ K = session.key i ∧
          entry = (session.manager, lease) := by
    intro K entry
    unfold System.finish
    cases ho : outcome.handle with
    | none => simp
    | some lease =>
        have hkey := (hands lease ho).leaseId
        by_cases hne : K = session.key i
        · simp [hne, hkey, eq_comm]
        · simp [hne, hkey]
  have hcounted : session.manager = m → (session.key i ∈ H ↔ outcome.isActive = true) := by
    intro hm
    have hrun := h.running i session hi hm
    rw [hp] at hrun
    rw [← show decide (session.key i ∈ H) = outcome.isActive from hrun, decide_eq_true_iff]
  refine ⟨h.count, h.feed, fun K lease hK => ?_, fun j a hj => h.running j a (hsub j a hj).2,
    fun j a hj => h.steady j a (hsub j a hj).2, fun K hK => ?_⟩
  · rcases (hleases K _).mp hK with ⟨hK, -⟩ | ⟨lease', ho, rfl, hentry⟩
    · exact h.idle K lease hK
    · obtain ⟨hm, rfl⟩ := Prod.mk.inj hentry
      rw [hcounted hm.symm, Outcome.isActive, ho, Option.any_some]
  · rcases h.held K hK with ⟨lease, hl⟩ | ⟨j, a, hj, ha, rfl⟩
    · refine .inl ⟨lease, (hleases K _).mpr (.inl ⟨hl, fun _ _ => ?_⟩)⟩
      rintro rfl
      rw [hkeyed.taken i session hi] at hl
      exact absurd hl (by simp)
    · by_cases hne : j = i
      · subst hne
        rw [hi, Option.some.injEq] at hj
        subst hj
        have hactive := (hcounted ha).mp hK
        obtain ⟨lease, ho, -⟩ := (Option.any_eq_true _ _).mp hactive
        exact .inl ⟨lease, (hleases _ _).mpr (.inr ⟨lease, ho, rfl, by rw [ha]⟩)⟩
      · exact .inr ⟨j, a, (Function.update_of_ne hne ..).trans hj, ha, rfl⟩

/-- A call of a session of `m`. -/
lemma call (h : s.Referenced m H) (hkeyed : s.Keyed) {i : SessionId} {session : Session}
    {o : ManagerOp FakeSnapshotData FakeIdentity}
    {k : ManagerRet FakeSnapshotData FakeIdentity o → FakeManaged Outcome}
    {answer : ManagerRet FakeSnapshotData FakeIdentity o} {w : World}
    (hi : s.sessions i = some session) (hm : session.manager = m)
    (hp : session.program = .call o k)
    (ha : World.handler S.faults i session.manager o s.world answer w)
    (hpaired : session.isApply → o = .enforceRelease → (s.world.enforce m).refs = 0) :
    ∃ H', System.Referenced m H' { s with
      world := w
      sessions := Function.update s.sessions i (some { session with program := k answer }) } := by
  subst hm
  have hrun := h.running i session hi rfl
  rw [hp] at hrun
  obtain ⟨hallows, hnext⟩ := hrun
  replace hnext := hnext answer (World.handler_answers ha)
  have hunwatched : session.request.isSteady = true → o.isWatch = false ∧ Unwatched (k answer) := by
    intro hreq
    have hun := (h.steady i session hi rfl hreq).1
    rw [hp] at hun
    exact ⟨hun.1, hun.2 answer trivial⟩
  by_cases hwatch : o.isWatch = false
  · have henforce := World.handler_unwatched ha hwatch
    refine ⟨H, h.resume hkeyed hi rfl (by rw [henforce]; exact h.count)
      (by rw [henforce]; exact h.feed) (fun _ _ => .rfl) ?_ fun hreq => ⟨(hunwatched hreq).2, rfl⟩⟩
    cases o with
    | enforceEnsure | enforceRelease => exact absurd hwatch (by simp [ManagerOp.isWatch])
    | _ => exact hnext
  rw [Bool.not_eq_false] at hwatch
  have hsteady : ∀ (p : FakeManaged Outcome) (H' : Finset LeaseId),
      session.request.isSteady = true → Unwatched p ∧ H' = H :=
    fun p H' hreq => absurd (hunwatched hreq).1 (by simp [hwatch])
  have hself : ∀ e, Function.update s.world.enforce session.manager e session.manager = e :=
    fun e => Function.update_self ..
  cases o with
  | enforceEnsure =>
      have hnot : session.key i ∉ H := by simpa [references] using hallows
      obtain ⟨started, rfl, henforce⟩ := World.handler_ensure ha
      rcases EnforceState.ensure_cases started h.feed with
        ⟨hok, hrefs, hfeed⟩ | ⟨⟨error, herror⟩, hsame⟩
      · refine ⟨insert (session.key i) H, h.resume hkeyed hi rfl ?_ ?_ (fun K hK => ?_) ?_
          (hsteady _ _)⟩
        · rw [henforce, hself, hrefs, Finset.card_insert_of_notMem hnot, h.count]
        · rw [henforce, hself]
          exact fun _ => hfeed
        · rw [Finset.mem_insert, or_iff_right hK]
        · rw [decide_eq_true (Finset.mem_insert_self ..)]
          rw [hok] at hnext ⊢
          exact hnext
      · refine ⟨H, h.resume hkeyed hi rfl ?_ ?_ (fun _ _ => .rfl) ?_ (hsteady _ _)⟩
        · rw [henforce, hself, hsame]
          exact h.count
        · rw [henforce, hself, hsame]
          exact h.feed
        · rw [herror] at hnext ⊢
          exact hnext
  | enforceRelease =>
      have henforce := World.handler_release ha
      have hfeed : (w.enforce session.manager).refs ≠ 0 → (w.enforce session.manager).feed = true := by
        rw [henforce, hself]
        exact EnforceState.release_feed h.feed
      by_cases hmem : session.key i ∈ H
      · refine ⟨H.erase (session.key i), h.resume hkeyed hi rfl ?_ hfeed (fun K hK => ?_) ?_
          (hsteady _ _)⟩
        · rw [henforce, hself, EnforceState.release_refs, Finset.card_erase_of_mem hmem, h.count]
        · rw [Finset.mem_erase, and_iff_right hK]
        · rw [decide_eq_false (Finset.notMem_erase _ _)]
          exact hnext
      · have hcleanup : session.isApply := by
          rcases hallows with hcounted | hcleanup
          · exact absurd (of_decide_eq_true hcounted) hmem
          · exact hcleanup
        refine ⟨H, h.resume hkeyed hi rfl ?_ hfeed (fun _ _ => .rfl) ?_ (hsteady _ _)⟩
        · rw [henforce, hself, EnforceState.release_refs, ← h.count, hpaired hcleanup rfl]
        · rw [decide_eq_false hmem]
          exact hnext
  | _ => exact absurd hwatch (by simp [ManagerOp.isWatch])

lemma step (hpolicy : S.policy m = .enforce) (h : s.Referenced m H) (hkeyed : s.Keyed)
    (hst : PairedStep S s t) : ∃ H', t.Referenced m H' := by
  obtain ⟨hst, hpaired⟩ := hst
  have hmanager : (S.manager m).conflictPolicy = .enforce := hpolicy
  cases hst with
  | start m' request claims alone enforced free =>
      refine ⟨H, h.spawn hkeyed rfl rfl rfl (fun _ _ h => h) (fun _ _ h => .inl h) ?_ ?_⟩
      · rintro rfl
        have hnot : s.next ∉ H := fun hmem => absurd (h.lt_next hkeyed hmem) (lt_irrefl _)
        have hkey : Session.key ⟨m', request, none, claims, request.alone (S.manager m')⟩ s.next =
            s.next := rfl
        rw [hkey, decide_eq_false hnot]
        exact follows_alone hmanager fun h => h
      · intro hm hreq
        refine ⟨unwatched_alone hreq, ?_⟩
        have hnot : s.next ∉ H := fun hmem => absurd (h.lt_next hkeyed hmem) (lt_irrefl _)
        exact ⟨fun hmem => absurd hmem hnot, fun h => absurd h (by simp)⟩
  | startOn m' request lease id onLease idle free =>
      obtain ⟨hid, hof⟩ := hkeyed.idle id (m', lease) idle
      have hkey : Session.key ⟨m', request, some lease, (· ∈ lease.resources),
          request.onLease (S.manager m') lease⟩ s.next = id := hof.leaseId
      refine ⟨H, h.spawn hkeyed rfl rfl rfl (fun K l hl => ?_) (fun K l hl => ?_) ?_ ?_⟩
      · exact ((update_eq_some hl).resolve_left fun h => absurd h.2 (by simp)).2
      · by_cases hne : K = id
        · subst hne
          rw [idle, Option.some.injEq, Prod.mk.injEq] at hl
          exact .inr ⟨hl.1, hkey⟩
        · exact .inl ((Function.update_of_ne hne ..).trans hl)
      · rintro rfl
        rw [hkey]
        have hiff : decide (id ∈ H) = lease.isActive := by
          rw [Bool.eq_iff_iff, decide_eq_true_iff]
          exact h.idle id lease idle
        rw [hiff]
        exact follows_onLease hmanager hof.wf (by rw [onLease]; rfl)
      · rintro rfl hreq
        rw [hkey]
        exact ⟨unwatched_onLease hreq, h.idle id lease idle⟩
  | call i session o k answer w running program claimed answered =>
      by_cases hm : session.manager = m
      · refine h.call hkeyed running hm program answered fun happly ho => ?_
        subst ho
        rw [← hm]
        exact hpaired i session k running happly program (Function.update_self ..)
      · refine ⟨H, h.congr (World.handler_enforce_other answered (Ne.symm hm)) (fun _ _ => .rfl)
          fun j a ha => ?_⟩
        by_cases hne : j = i
        · subst hne
          have hnot : ∀ b : Session, b.manager = session.manager → some b ≠ some a := by
            rintro b hb heq
            rw [Option.some.injEq] at heq
            exact hm (hb.symm.trans (heq ▸ ha))
          rw [running]
          exact ⟨fun hj => absurd ((Function.update_self ..).symm.trans hj) (hnot _ rfl),
            fun hj => absurd hj (hnot _ rfl)⟩
        · exact iff_of_eq (congrArg (· = some a) (Function.update_of_ne hne ..))
  | finish i session outcome running program => exact ⟨H, h.finish hkeyed running program⟩
  | environment w henv =>
      exact ⟨H, h.congr (congrFun henv.enforce m) (fun _ _ => .rfl) fun _ _ _ => .rfl⟩
  | crash m' =>
      by_cases hm : m' = m
      · subst hm
        refine ⟨∅, ?_, ?_, fun K lease hK => ?_, fun i a hi ha => ?_, fun i a hi ha => ?_,
          fun K hK => absurd hK (by simp)⟩
        · simp [World.crash]
        · simp [World.crash]
        · exact absurd (Option.filter_eq_some_iff.mp hK).2 (by simp)
        · exact absurd (Option.filter_eq_some_iff.mp hi).2 (by simp [ha])
        · exact absurd (Option.filter_eq_some_iff.mp hi).2 (by simp [ha])
      · refine ⟨H, h.congr (Function.update_of_ne (Ne.symm hm) ..) (fun K lease => ?_)
          fun i a ha => ?_⟩
        · refine ⟨fun hK => (Option.filter_eq_some_iff.mp hK).1,
            fun hK => Option.filter_eq_some_iff.mpr ⟨hK, ?_⟩⟩
          simpa using Ne.symm hm
        · refine ⟨fun hi => (Option.filter_eq_some_iff.mp hi).1,
            fun hi => Option.filter_eq_some_iff.mpr ⟨hi, ?_⟩⟩
          simpa [ha] using Ne.symm hm

end System.Referenced

/-! ## What runs keep -/

/-- Runs in which no `apply` gives back a reference while one is counted. -/
inductive System.PairedRun (S : Setup) : System → Prop
  | init {s : System} (h : Initial s) : PairedRun S s
  | step {s t : System} (h : PairedRun S s) (hst : PairedStep S s t) : PairedRun S t

lemma System.PairedRun.reachable {S : Setup} {s : System} (h : PairedRun S s) : Reachable S s := by
  induction h with
  | init h => exact .init h
  | step _ hst ih => exact .step ih hst.step

/-- The lease `K` of manager `m` is in its active phase, idle or with an operation in progress. -/
def System.ActiveLease (m : ManagerId) (s : System) (K : LeaseId) : Prop :=
  (∃ lease, s.leases K = some (m, lease) ∧ lease.isActive = true) ∨
    ∃ i session lease, s.sessions i = some session ∧ session.manager = m ∧
      session.handle = some lease ∧ lease.leaseId = K ∧ lease.isActive = true

/-- No `apply` and no teardown of manager `m` is in progress. -/
def System.Settled (m : ManagerId) (s : System) : Prop :=
  ∀ i session, s.sessions i = some session → session.manager = m → session.request.isSteady = true

/-- In a settled state the leases counted are the active ones. -/
lemma System.Referenced.active {m : ManagerId} {H : Finset LeaseId} {s : System}
    (h : s.Referenced m H) (hs : s.Settled m) :
    (H : Set LeaseId) = {K | s.ActiveLease m K} := by
  have hkey : ∀ {i session lease}, s.sessions i = some session → session.handle = some lease →
      session.key i = lease.leaseId := fun {i session lease} _ hl => by
    rw [Session.key, hl]
    rfl
  ext K
  constructor
  · intro hK
    rcases h.held K hK with ⟨lease, hl⟩ | ⟨i, session, hi, hm, rfl⟩
    · exact .inl ⟨lease, hl, (h.idle K lease hl).mp hK⟩
    · have hactive := ((h.steady i session hi hm (hs i session hi hm)).2).mp hK
      obtain ⟨lease, hl, ha⟩ := (Option.any_eq_true _ _).mp hactive
      exact .inr ⟨i, session, lease, hi, hm, hl, (hkey hi hl).symm, ha⟩
  · rintro (⟨lease, hl, ha⟩ | ⟨i, session, lease, hi, hm, hl, rfl, ha⟩)
    · exact (h.idle K lease hl).mpr ha
    · rw [← hkey hi hl]
      refine ((h.steady i session hi hm (hs i session hi hm)).2).mpr ?_
      rw [hl]
      exact ha

/-- An Enforce manager observes as long as it has active leases.  In every run in which no
`apply` gives back a reference while one is counted, and in every state outside of applies and
teardowns of the manager, the reference count is the number of its active leases, and the
reconciler is fed whenever there is one. -/
theorem System.PairedRun.observation {S : Setup} {m : ManagerId} {s : System}
    (hpolicy : S.policy m = .enforce) (hrun : PairedRun S s) (hs : s.Settled m) :
    (s.world.enforce m).refs = Set.ncard {K | s.ActiveLease m K} ∧
      (0 < Set.ncard {K | s.ActiveLease m K} → (s.world.enforce m).feed = true) := by
  have hinv : ∃ H, s.Referenced m H := by
    clear hs
    induction hrun with
    | init h => exact ⟨∅, .init h⟩
    | step hrun hst ih =>
        obtain ⟨H, hH⟩ := ih
        exact hH.step hpolicy (.reachable hrun.reachable) hst
  obtain ⟨H, hH⟩ := hinv
  have hcard : Set.ncard {K | s.ActiveLease m K} = H.card := by
    rw [← hH.active hs, Set.ncard_coe_finset]
  rw [hcard]
  exact ⟨hH.count, fun hpos => hH.feed (by rw [hH.count]; exact hpos.ne')⟩

lemma System.ActiveLease.lt {m : ManagerId} {s : System} {K : LeaseId} (h : s.ActiveLease m K)
    (hkeyed : s.Keyed) : K < s.next := by
  rcases h with ⟨lease, hl, -⟩ | ⟨i, session, lease, hi, -, hl, rfl, -⟩
  · exact (hkeyed.idle K _ hl).1
  · have hkey := (hkeyed.started i session hi).2
    rwa [Session.key, hl] at hkey

/-! ## Computed runs -/

/-- No session is about to give back the reference of an `apply` while one is counted. -/
def System.paired (s : System) : Bool :=
  (List.range s.next).all fun i => (s.sessions i).all fun session =>
    match session.request, session.program with
    | .apply _, .call .enforceRelease _ => (s.world.enforce session.manager).refs == 0
    | _, _ => true

/-- The state after some single moves, each from a state in which references are paired. -/
def System.performPaired (S : Setup) (s : System) : List Move → Option System
  | [] => some s
  | move :: moves =>
      if move.single && s.paired then
        (s.perform S move).bind fun t => t.performPaired S moves
      else none

lemma System.PairedStep.of_paired {S : Setup} {s t : System} (hkeyed : s.Keyed)
    (hpaired : s.paired = true) (hst : Step S s t) : PairedStep S s t := by
  refine ⟨hst, fun i session k hi happly hp _ => ?_⟩
  obtain ⟨config, hreq⟩ := happly
  have hall := List.all_eq_true.mp hpaired i (List.mem_range.mpr (hkeyed.started i session hi).1)
  simpa [hi, hreq, hp] using hall

lemma System.PairedRun.of_performPaired {S : Setup} {s t : System} {moves : List Move}
    (hfaults : ∀ o, S.faults o) (hserial : ¬ S.serial) (hrun : PairedRun S s)
    (h : Computed S s) (hst : s.performPaired S moves = some t) : PairedRun S t := by
  induction moves generalizing s with
  | nil => exact Option.some.inj hst ▸ hrun
  | cons move moves ih =>
      simp only [System.performPaired, Bool.and_eq_true, Option.ite_none_right_eq_some] at hst
      obtain ⟨⟨hsingle, hpaired⟩, hst⟩ := hst
      obtain ⟨u, hu, hrest⟩ := Option.bind_eq_some_iff.mp hst
      have hmove : Allows S s move :=
        ⟨fun _ _ _ _ _ => .inr hfaults, fun _ _ hs => absurd hs hserial⟩
      obtain ⟨hstep, hclaims⟩ := h.step hsingle hmove hu
      exact ih (hrun.step (.of_paired (.reachable h.reachable) hpaired hstep))
        ⟨.step h.reachable hstep, hclaims⟩ hrest

/-- The configuration of a scope with a server and a search domain. -/
def DnsConfig.corporate (scope : DnsScope) : DnsConfig :=
  ⟨scope, [.v4 3221225985], [⟨"corp.example".toList⟩], [], none⟩

/-- An `apply` fails to start the watch and restores its lease before any reference is counted; then
two others succeed. -/
def failedStart : List Move :=
  [.start 0 (.apply (.corporate .global)),
    .calls 0 (List.replicate 31 .proceed ++ [.fail "the native watch did not start"]), .run 0 26,
    .finish 0, .start 0 (.apply (.corporate (.interface .default))), .run 1 33, .finish 1,
    .start 0 (.apply (.corporate .global)), .run 2 33, .finish 2].flatMap Move.singles

/-- After `failedStart` nothing is in progress, two leases are active, and the manager counts a
reference for each. -/
theorem System.PairedRun.observation_failedStart :
    ∃ s, PairedRun (System.unrestricted .enforce) s ∧ s.leases 0 = none ∧ s.ActiveLease 0 1 ∧
      s.ActiveLease 0 2 ∧ (s.world.enforce 0).refs = Set.ncard {K | s.ActiveLease 0 K} ∧
      (0 < Set.ncard {K | s.ActiveLease 0 K} → (s.world.enforce 0).feed = true) := by
  have hrun : ((System.pristine (World.pristine (.pair .loopback .ethernet) .empty)).performPaired
      (System.unrestricted .enforce) failedStart).any (fun s =>
        s.atRest && (s.leases 0).isNone && [1, 2].all fun K =>
          (s.leases K).any fun entry => entry.1 == 0 && entry.2.isActive) = true := by decide +kernel
  obtain ⟨s, hs, hview⟩ := (Option.any_eq_true _ _).mp hrun
  simp only [Bool.and_eq_true, Option.isNone_iff_eq_none, List.all_eq_true] at hview
  obtain ⟨⟨hrest, hnone⟩, hactive⟩ := hview
  have hpaired : PairedRun (System.unrestricted .enforce) s :=
    .of_performPaired (fun _ => trivial) (fun h => h) (.init (System.initial_pristine _ _))
      (System.computed_pristine _ _) hs
  have hlease : ∀ K ∈ [1, 2], s.ActiveLease 0 K := by
    intro K hK
    obtain ⟨⟨owner, lease⟩, hl, hentry⟩ := (Option.any_eq_true _ _).mp (hactive K hK)
    simp only [Bool.and_eq_true, beq_iff_eq] at hentry
    obtain ⟨rfl, ha⟩ := hentry
    exact .inl ⟨lease, hl, ha⟩
  refine ⟨s, hpaired, hnone, hlease 1 (by simp), hlease 2 (by simp),
    System.PairedRun.observation rfl hpaired fun i session hi => ?_⟩
  rw [hpaired.reachable.sessions_none hrest i] at hi
  cases hi

/-! ## The cleanup that takes another lease's reference -/

/-- The empty configuration of a scope. -/
def DnsConfig.empty (scope : DnsScope) : DnsConfig := ⟨scope, [], [], [], none⟩

/-- One `apply` registers its lease and fails to start the watch; before it restores that lease,
another `apply` succeeds and takes the first reference. -/
def lostObservation : List Move :=
  [.start 0 (.apply (.empty .global)),
    .calls 0 (List.replicate 15 .proceed ++ [.fail "the native watch did not start"]),
    .start 0 (.apply (.empty (.interface .default))), .run 1 17, .finish 1,
    .run 0 16, .finish 0]

/-- After `lostObservation` nothing is in progress, the second lease is active, and its manager
counts no reference and observes nothing. -/
theorem observation_lost : ∃ s, System.Reachable (System.unrestricted .enforce) s ∧ s.Settled 0 ∧
    s.ActiveLease 0 1 ∧ (s.world.enforce 0).refs ≠ Set.ncard {K | s.ActiveLease 0 K} ∧
    (s.world.enforce 0).feed = false := by
  have hrun : ((System.pristine (World.pristine (.pair .loopback .ethernet) .empty)).performAll
      (System.unrestricted .enforce) lostObservation).any (fun s =>
        s.next == 2 && (s.sessions 0).isNone && (s.sessions 1).isNone &&
          (s.leases 1).any (fun entry => entry.1 == 0 && entry.2.isActive) &&
          (s.world.enforce 0).refs == 0 && !(s.world.enforce 0).feed) = true := by decide +kernel
  obtain ⟨s, hs, hview⟩ := (Option.any_eq_true _ _).mp hrun
  simp only [Bool.and_eq_true, beq_iff_eq, Bool.not_eq_true', Option.isNone_iff_eq_none] at hview
  obtain ⟨⟨⟨⟨⟨hnext, h0⟩, h1⟩, hlease⟩, hrefs⟩, hfeed⟩ := hview
  have hreach : System.Reachable (System.unrestricted .enforce) s :=
    System.reachable_performAll (fun _ => trivial) (fun h => h) hs
  have hkeyed := System.Keyed.reachable hreach
  have hactive : s.ActiveLease 0 1 := by
    obtain ⟨⟨owner, lease⟩, hl, hentry⟩ := (Option.any_eq_true _ _).mp hlease
    simp only [Bool.and_eq_true, beq_iff_eq] at hentry
    obtain ⟨rfl, ha⟩ := hentry
    exact .inl ⟨lease, hl, ha⟩
  refine ⟨s, hreach, fun i session hi => ?_, hactive, ?_, hfeed⟩
  · have hlt := (hkeyed.started i session hi).1
    rw [hnext] at hlt
    interval_cases i
    · exact absurd hi (by simp [h0])
    · exact absurd hi (by simp [h1])
  · have hfinite : Set.Finite {K | s.ActiveLease 0 K} :=
      (Set.finite_lt_nat s.next).subset fun K hK => System.ActiveLease.lt hK hkeyed
    rw [hrefs]
    exact (Set.ncard_pos hfinite |>.mpr ⟨1, hactive⟩).ne

end Osdns
