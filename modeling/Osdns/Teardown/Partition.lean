import Osdns.System.Execution
import Osdns.Teardown.Later

/-!
# Partial teardown

Ending a lease over several resources may succeed for some and fail for others.  In every run, the
session that ends the lease tells the two apart exactly: a resource whose step succeeded has its
record removed and its lock released and leaves the lease, a resource whose step failed stays in
the lease with its lock, and nothing that happens to the lease later touches a resource that left.
-/

namespace Osdns

open Interaction

variable {S : Setup} {M : FakeManager} {request : Request} {lease : Lease} {state : LiveLease}
variable {es : List WorldExchange} {outcomes : ResourceId → Except Error Unit}
variable {result : Except (Error × Lease) Unit} {ref : LiveRef}

/-! ## The calls for one resource -/

/-- The calls for one resource: it is unregistered, the step is performed, and its lock is released
if that succeeded.  No other call of the session is about the resource. -/
structure ResourceCalls (M : FakeManager) (request : Request) (state : LiveLease)
    (es : List WorldExchange) (ref : LiveRef) (outcome : Except Error Unit) : Prop where
  split : ∃ before front block back after, es = before ++ (front ++ block ++ back) ++ after ∧
    (∀ e ∈ before ++ after, e.op.Off ref.resource) ∧
    (∃ token, front.map (·.op) = [.tokenGet ref.resource, .tokenLock token, .enterSection ref,
      .activeRemove ref.resource, .tokenRemove ref.resource, .reconcilerRemove ref.resource] ∧
      back.map (·.op) = (if outcome.isOk then
        (state.locks.filter (· = ref.resource)).map .release else []) ++
          [.leaveSection ref, .tokenUnlock token]) ∧
    (request.step M ref).Transcript block (.done outcome)

lemma off_enforceRelease {r : ResourceId} {o : ManagerOp FakeSnapshotData FakeIdentity}
    (h : o = .enforceRelease) : o.Off r := by
  subst h
  exact fun h => absurd h (by simp [ManagerOp.target])

lemma EndedBy.resource (h : EndedBy M request lease state es outcomes result)
    (href : ref ∈ state.live) :
    ResourceCalls M request state es ref (outcomes ref.resource) := by
  obtain ⟨records, rest, left, rfl, torn, hrest, -⟩ := h.torn
  obtain ⟨before, part, after, rfl, hpart, hothers⟩ := torn.parts ref href
  obtain ⟨token, front, block, back, rfl, hfront, hblock, hback⟩ := teardownRecord_calls hpart
  refine ⟨before, front, block, back, after ++ rest, by simp only [List.append_assoc], fun e he => ?_,
    ⟨token, hfront, hback⟩, hblock⟩
  rw [← List.append_assoc] at he
  rcases List.mem_append.mp he with he | he
  · obtain ⟨other, -, hne, htears⟩ := hothers e he
    exact htears.off hne
  · exact off_enforceRelease (hrest e he)

/-- Every call is for a record of the lease, or gives the observation back. -/
lemma EndedBy.calls (h : EndedBy M request lease state es outcomes result) :
    ∀ e ∈ es, (∃ ref ∈ state.live, e.op.Tears ref) ∨ e.op = .enforceRelease := by
  obtain ⟨records, rest, left, rfl, torn, hrest, -⟩ := h.torn
  intro e he
  rcases List.mem_append.mp he with he | he
  · exact .inl (torn.calls e he)
  · exact .inr (hrest e he)

/-- A teardown acquires no lock. -/
lemma EndedBy.not_acquires (h : EndedBy M request lease state es outcomes result) {r : ResourceId}
    {e : WorldExchange} (he : e ∈ es) : e.op ≠ .acquire r ∧ e.op ≠ .tryAcquire r := by
  rcases h.calls e he with ⟨other, -, htears⟩ | henforce
  · constructor
    · intro hop
      rw [hop] at htears
      exact htears
    · intro hop
      rw [hop] at htears
      exact htears
  · simp [henforce]

section Calls

variable {outcome : Except Error Unit}

/-- The lock of a resource is only released after the step on it succeeded. -/
lemma ResourceCalls.isOk_of_release (h : ResourceCalls M request state es ref outcome)
    (hnamed : ∀ e ∈ es, ManagerNamed e.op e.answer) {e : WorldExchange} (he : e ∈ es)
    (hrelease : e.op = .release ref.resource) : outcome.isOk = true := by
  obtain ⟨before, front, block, back, after, rfl, hoff, ⟨token, hfront, hback⟩, hblock⟩ := h.split
  have hothers : e ∉ before ++ after := fun hmem => by
    have := (hoff e hmem).target
    rw [hrelease] at this
    exact this rfl
  rw [List.mem_append, not_or] at hothers
  have hpart : e ∈ front ∨ e ∈ block ∨ e ∈ back := by
    simpa [hothers.1, hothers.2, or_assoc] using he
  rcases hpart with hmem | hmem | hmem
  · have hop : e.op ∈ front.map (·.op) := List.mem_map_of_mem hmem
    rw [hfront, hrelease] at hop
    exact absurd hop (by simp)
  · have hown := hblock.only (fun e he => hnamed e (by simp [he]))
      (request.tearsDown.own ref) e hmem
    obtain ⟨engineOp, heq, -⟩ := hown
    rw [hrelease] at heq
    exact absurd heq (by simp)
  · have hop : e.op ∈ back.map (·.op) := List.mem_map_of_mem hmem
    rw [hback, hrelease] at hop
    by_contra hok
    simp [hok] at hop

/-- After a successful step the lock of the resource is released. -/
lemma ResourceCalls.released (h : ResourceCalls M request state es ref (.ok ()))
    (hheld : ref.resource ∈ state.locks) : ∃ e ∈ es, e.op = .release ref.resource := by
  obtain ⟨before, front, block, back, after, rfl, -, ⟨token, -, hback⟩, -⟩ := h.split
  have hmem : ManagerOp.release ref.resource ∈ back.map (·.op) := by
    rw [hback]
    simp [Except.isOk, Except.toBool, hheld]
  obtain ⟨e, he, hop⟩ := List.mem_map.mp hmem
  exact ⟨e, by simp [he], hop⟩

/-- A successful step removes the journal record of the resource, and no call of the session
writes one after that. -/
lemma ResourceCalls.removed (h : ResourceCalls M request state es ref (.ok ()))
    (hnamed : ∀ e ∈ es, ManagerNamed e.op e.answer) :
    ∃ first reason before after rest, es = first ++
        ⟨.engine (.journalRemove ref.lease ref.resource reason), .ok (), before, after⟩ :: rest ∧
      ∀ e ∈ rest, ∀ record, e.op = .engine (.journalWrite record) →
        record.resource ≠ ref.resource := by
  obtain ⟨before, front, block, back, after, rfl, hoff, ⟨token, -, hback⟩, hblock⟩ := h.split
  obtain ⟨first, reason, w, w', fires, rfl, hfires⟩ := request.tearsDown.removed hblock
    fun e he => hnamed e (by simp only [List.mem_append]; exact .inl (.inr (.inl (.inr he))))
  refine ⟨before ++ front ++ first, reason, w, w', fires ++ back ++ after, by simp,
    fun e he record hwrite => ?_⟩
  rw [List.mem_append, List.mem_append] at he
  rcases he with (hmem | hmem) | hmem
  · have hfire := hfires e hmem
    rw [hwrite] at hfire
    exact hfire.elim
  · have hop : e.op ∈ back.map (·.op) := List.mem_map_of_mem hmem
    rw [hback, hwrite] at hop
    exact absurd hop (by simp)
  · have htarget := (hoff e (List.mem_append_right _ hmem)).target
    rw [hwrite] at htarget
    exact fun heq => htarget (congrArg some heq)

end Calls

/-- What is left of a lease once the resources whose step succeeded left it. -/
def LiveLease.remaining (state : LiveLease) (outcomes : ResourceId → Except Error Unit)
    (phase : LeasePhase) : LiveLease where
  live := state.live.filter fun ref => !(outcomes ref.resource).isOk
  locks := state.locks.filter fun r => !(outcomes r).isOk
  phase := phase

lemma isOk_iff {outcome : Except Error Unit} : outcome.isOk = true ↔ outcome = .ok () := by
  cases outcome with
  | ok _ => exact ⟨fun _ => rfl, fun _ => rfl⟩
  | error error => exact ⟨fun h => of_isOk_error h, fun h => absurd h (by simp)⟩

/-- The lease and its locks after a teardown. -/
lemma Torn.remaining {step : LiveRef → FakeManaged (Except Error Unit)} {left : Teardown}
    {phase : LeasePhase} (h : Torn step state.live state.locks es outcomes left)
    (hwf : state.Wf lease.leaseId lease.resources) :
    (⟨left.live, left.locks, phase⟩ : LiveLease) = state.remaining outcomes phase := by
  rw [h.kept, h.locked, LiveLease.remaining, LiveLease.mk.injEq]
  refine ⟨rfl, List.filter_congr fun r hr => ?_, rfl⟩
  simp [(hwf.locked r).mp hr]

/-- Where the request leaves the lease. -/
lemma EndedBy.result_eq (h : EndedBy M request lease state es outcomes result)
    (hwf : state.Wf lease.leaseId lease.resources) :
    ((∀ ref ∈ state.live, outcomes ref.resource = .ok ()) ∧ result = .ok ()) ∨
      ∃ error, result = .error (error,
          { lease with state := some (state.remaining outcomes request.phase) }) ∧
        ∃ ref ∈ state.live, outcomes ref.resource = .error error := by
  obtain ⟨records, rest, left, -, torn, -, handed⟩ := h.torn
  cases herror : left.error with
  | none => exact .inl ⟨fun ref href => isOk_iff.mp (torn.clean herror ref href), handed.ended herror⟩
  | some error =>
      right
      refine ⟨error, ?_, torn.failed error herror⟩
      rw [handed.kept error herror, torn.remaining hwf]

/-- A resource whose step succeeded is not in what is left of the lease. -/
lemma LiveLease.remaining_without {r : ResourceId} {phase : LeasePhase} (hphase : phase ≠ .active)
    (hok : outcomes r = .ok ()) :
    ({ lease with state := some (state.remaining outcomes phase) } : Lease).Without r := by
  have hisOk : (outcomes r).isOk = true := isOk_iff.mpr hok
  refine ⟨by simp [Lease.isActive, LiveLease.remaining, hphase], fun left hleft hmem => ?_,
    fun left hleft hmem => ?_⟩
  · obtain rfl := Option.some.inj hleft
    obtain ⟨ref, href, rfl⟩ := List.mem_map.mp hmem
    have := (List.mem_filter.mp href).2
    simp [hisOk] at this
  · obtain rfl := Option.some.inj hleft
    have := (List.mem_filter.mp hmem).2
    simp [hisOk] at this

lemma Request.phase_ne_active : request.phase ≠ .active := by
  cases request <;> simp [Request.phase]

/-! ## Runs -/

namespace System

variable {s t : System} {m : ManagerId} {id : LeaseId} {i : SessionId}
variable {log : List (SessionId × WorldExchange)}

/-- The system after an operation on an idle lease started. -/
def startedOn (S : Setup) (s : System) (m : ManagerId) (request : Request) (lease : Lease)
    (id : LeaseId) : System :=
  { s with leases := Function.update s.leases id none }.spawn
    ⟨m, request, some lease, (· ∈ lease.resources), request.onLease (S.manager m) lease⟩

/-- What session `i`, which ends a lease, did in a run that led to `t`; `outcomes` says how the step
on each resource ended. -/
structure Partition (S : Setup) (m : ManagerId) (request : Request) (lease : Lease)
    (state : LiveLease) (i : SessionId) (log : List (SessionId × WorldExchange)) (t : System)
    (outcomes : ResourceId → Except Error Unit) (result : Except (Error × Lease) Unit) : Prop where
  /-- The step was performed on every live record, with that outcome. -/
  stepped : ∀ ref ∈ state.live, ∃ before calls after, Run.own i log = before ++ calls ++ after ∧
    (request.step (S.manager m) ref).Transcript calls (.done (outcomes ref.resource))
  /-- After a success the record is gone; if one is there at the end, another session wrote it. -/
  removed : ∀ ref ∈ state.live, outcomes ref.resource = .ok () → ∃ first reason before after rest,
    log = first ++ (i, ⟨.engine (.journalRemove lease.leaseId ref.resource reason), .ok (), before,
        after⟩) :: rest ∧
      (after.cells ref.resource).record lease.leaseId = none ∧
      ((t.world.cells ref.resource).record lease.leaseId = none ∨ ∃ j e record, (j, e) ∈ rest ∧
        j ≠ i ∧ e.op = .engine (.journalWrite record) ∧ record.resource = ref.resource ∧
          record.leaseId = lease.leaseId)
  /-- After a success the lock is free; if it is held at the end, another session took it. -/
  released : ∀ ref ∈ state.live, outcomes ref.resource = .ok () → ∃ first e rest,
    log = first ++ (i, e) :: rest ∧ e.op = .release ref.resource ∧
      (e.after.cells ref.resource).lock = none ∧
      ((t.world.cells ref.resource).lock = none ∨ ∃ j e, (j, e) ∈ rest ∧ j ≠ i ∧
        (e.op = .acquire ref.resource ∨ e.op = .tryAcquire ref.resource))
  /-- No other lock is released. -/
  spared : ∀ r e, (i, e) ∈ log → e.op = .release r →
    ∃ ref ∈ state.live, ref.resource = r ∧ outcomes r = .ok ()
  /-- Without a failure the lease is over. -/
  ended : (∀ ref ∈ state.live, outcomes ref.resource = .ok ()) → result = .ok ()
  /-- With a failure the lease keeps the records and the locks of the resources that failed. -/
  kept : (∃ ref ∈ state.live, outcomes ref.resource ≠ .ok ()) → ∃ error,
    result = .error (error, { lease with state := some (state.remaining outcomes request.phase) }) ∧
      ∃ ref ∈ state.live, outcomes ref.resource = .error error
  /-- Nothing that is done for the lease later has to do with a resource that left it. -/
  later : ∀ ref ∈ state.live, outcomes ref.resource = .ok () → ∀ u,
    Relation.ReflTransGen (Step S) t u → ∀ j session o k, u.sessions j = some session →
      session.key j = lease.leaseId → session.program = .call o k → World.Spares ref.resource o

section Steps

variable {r : ResourceId} {K : LeaseId} {entry : SessionId × WorldExchange}

/-- A quiet step leaves the journal alone. -/
lemma Quiet.record (h : Quiet S s t) : (t.world.cells r).record K = (s.world.cells r).record K := by
  obtain ⟨hst, silent⟩ := h
  cases hst with
  | call j a o k answer w hj program claimed answered =>
      exact absurd (.mk s j a o k answer w hj program claimed answered) (silent _)
  | environment w henv => rw [Cell.record, (henv.cells r).1, Cell.record]
  | start | startOn | finish | crash => rfl

/-- A quiet step takes no free lock. -/
lemma Quiet.lock_free (h : Quiet S s t) (hn : (s.world.cells r).lock = none) :
    (t.world.cells r).lock = none := by
  obtain ⟨hst, silent⟩ := h
  cases hst with
  | call j a o k answer w hj program claimed answered =>
      exact absurd (.mk s j a o k answer w hj program claimed answered) (silent _)
  | environment w henv => rw [(henv.cells r).2.1, hn]
  | crash m =>
      change (s.world.cells r).lock.filter _ = none
      rw [hn, Option.filter_none]
  | start | startOn | finish => exact hn

lemma Calls.record_absent (h : Calls S s entry t) (hn : (s.world.cells r).record K = none) :
    (t.world.cells r).record K = none ∨ ∃ record, entry.2.op = .engine (.journalWrite record) ∧
      record.resource = r ∧ record.leaseId = K := by
  cases h with
  | mk i session o k answer w running program claimed answered =>
      exact World.record_absent answered hn

lemma Calls.lock_free (h : Calls S s entry t) (hn : (s.world.cells r).lock = none) :
    (t.world.cells r).lock = none ∨ entry.2.op = .acquire r ∨ entry.2.op = .tryAcquire r := by
  cases h with
  | mk i session o k answer w running program claimed answered =>
      exact World.lock_free answered hn

end Steps

/-- A record that a session removed and never wrote again is absent at the end, unless another
session wrote it. -/
lemma Run.record_absent {r : ResourceId} {K : LeaseId} {first rest : List (SessionId × WorldExchange)}
    {e : WorldExchange} (h : Run S s log t) (hlog : log = first ++ (i, e) :: rest)
    (hremoved : (e.after.cells r).record K = none)
    (hown : ∀ e ∈ own i rest, ∀ record, e.op = .engine (.journalWrite record) →
      record.resource ≠ r) :
    (t.world.cells r).record K = none ∨ ∃ j e record, (j, e) ∈ rest ∧ j ≠ i ∧
      e.op = .engine (.journalWrite record) ∧ record.resource = r ∧ record.leaseId = K := by
  have hkept := h.kept (P := fun w => (w.cells r).record K = none)
    (fun hq hn => by rwa [hq.record]) (fun hc hn => hc.record_absent hn) hlog hremoved
  refine hkept.imp_right fun hother => ?_
  obtain ⟨⟨j, e'⟩, hmem, record, hop, hr, hK⟩ := hother
  refine ⟨j, e', record, hmem, fun hj => ?_, hop, hr, hK⟩
  exact hown e' (mem_own.mpr (hj ▸ hmem)) record hop hr

/-- A lock that a session released and never acquired again is free at the end, unless another
session acquired it. -/
lemma Run.lock_free {r : ResourceId} {first rest : List (SessionId × WorldExchange)}
    {e : WorldExchange} (h : Run S s log t) (hlog : log = first ++ (i, e) :: rest)
    (hreleased : (e.after.cells r).lock = none)
    (hown : ∀ e ∈ own i rest, e.op ≠ .acquire r ∧ e.op ≠ .tryAcquire r) :
    (t.world.cells r).lock = none ∨ ∃ j e, (j, e) ∈ rest ∧ j ≠ i ∧
      (e.op = .acquire r ∨ e.op = .tryAcquire r) := by
  have hkept := h.kept (P := fun w => (w.cells r).lock = none)
    (fun hq hn => hq.lock_free hn) (fun hc hn => hc.lock_free hn) hlog hreleased
  refine hkept.imp_right fun hother => ?_
  obtain ⟨⟨j, e'⟩, hmem, hop⟩ := hother
  refine ⟨j, e', hmem, fun hj => ?_, hop⟩
  have hnever := hown e' (mem_own.mpr (hj ▸ hmem))
  exact hop.elim hnever.1 hnever.2

/-! ## The theorem -/

section Theorem

variable {session : Session}

/-- The record that a successful step removes stays away. -/
lemma Run.removed_of_resourceCalls {ref : LiveRef} (hs : Reachable S s) (hrun : Run S s log t)
    (h : ResourceCalls M request state (own i log) ref (.ok ())) :
    ∃ first reason before after rest, log = first ++ (i,
        ⟨.engine (.journalRemove ref.lease ref.resource reason), .ok (), before, after⟩) :: rest ∧
      (after.cells ref.resource).record ref.lease = none ∧
      ((t.world.cells ref.resource).record ref.lease = none ∨ ∃ j e record, (j, e) ∈ rest ∧ j ≠ i ∧
        e.op = .engine (.journalWrite record) ∧ record.resource = ref.resource ∧
          record.leaseId = ref.lease) := by
  have hcalls := hrun.handled hs
  obtain ⟨first, reason, before, after, rest, heq, hrest⟩ :=
    h.removed fun e he => (hcalls _ (mem_own.mp he)).2
  obtain ⟨pre, post, hlog, -, hpost⟩ := own_eq_append heq
  obtain ⟨⟨m', hanswered⟩, -⟩ := hcalls _ (hlog ▸ List.mem_append_right _ (List.mem_cons_self ..))
  have hgone := World.record_removed hanswered rfl
  refine ⟨pre, reason, before, after, post, hlog, hgone, hrun.record_absent hlog hgone ?_⟩
  rw [hpost]
  exact hrest

/-- The lock that was released after a successful step stays free. -/
lemma Run.released_of_endedBy {ref : LiveRef} (hs : Reachable S s) (hrun : Run S s log t)
    (h : EndedBy M request lease state (own i log) outcomes result)
    (hresource : ResourceCalls M request state (own i log) ref (.ok ()))
    (hheld : ref.resource ∈ state.locks) :
    ∃ first e rest, log = first ++ (i, e) :: rest ∧ e.op = .release ref.resource ∧
      (e.after.cells ref.resource).lock = none ∧
      ((t.world.cells ref.resource).lock = none ∨ ∃ j e, (j, e) ∈ rest ∧ j ≠ i ∧
        (e.op = .acquire ref.resource ∨ e.op = .tryAcquire ref.resource)) := by
  obtain ⟨⟨o, answer, before, after⟩, he, rfl⟩ := hresource.released hheld
  obtain ⟨pre, post, hlog⟩ := List.append_of_mem (mem_own.mp he)
  obtain ⟨⟨m', hanswered⟩, -⟩ := hrun.handled hs _ (mem_own.mp he)
  have hfree := World.lock_released hanswered
  refine ⟨pre, _, post, hlog, rfl, hfree, hrun.lock_free hlog hfree fun e he => h.not_acquires ?_⟩
  rw [mem_own, hlog]
  exact List.mem_append_right _ (List.mem_cons_of_mem _ (mem_own.mp he))

/-- Once the request returned, nobody who works for the lease has to do with a resource that left. -/
lemma apart_of_ended (h : EndedBy M request lease state es outcomes result)
    (hwf : state.Wf lease.leaseId lease.resources) (ht : Reachable S t)
    (running : t.sessions i = some session) (hkey : session.key i = lease.leaseId)
    (returned : session.program = .done (.ended result)) {r : ResourceId}
    (hok : outcomes r = .ok ()) : t.Apart lease.leaseId r := by
  have keyed := Keyed.reachable ht
  refine ⟨hkey ▸ (keyed.started i session running).2, fun m' lease' hidle => ?_,
    fun j a hj hja => ?_⟩
  · have htaken := keyed.taken i session running
    rw [hkey, hidle] at htaken
    exact absurd htaken (by simp)
  · obtain rfl := keyed.distinct j i a session hj running (hja.trans hkey.symm)
    obtain rfl := Option.some.inj (hj.symm.trans running)
    rw [returned]
    refine .done fun lease' hhandle => ?_
    rcases h.result_eq hwf with ⟨-, rfl⟩ | ⟨error, rfl, -⟩
    · exact absurd hhandle (by simp [Outcome.handle])
    · obtain rfl := Option.some.inj hhandle
      exact LiveLease.remaining_without Request.phase_ne_active hok

/-- In every run in which a restore or abandonment of a lease returns, whatever failed and whatever
others did meanwhile, the resources whose step succeeded and those whose step failed are told apart
exactly. -/
theorem teardown_partition (hs : Reachable S s)
    (hreq : request = .restore id ∨ request = .abandon id) (idle : s.leases id = some (m, lease))
    (hstate : lease.state = some state) (free : s.Free S (· ∈ lease.resources))
    (hrun : Run S (startedOn S s m request lease id) log t)
    (running : t.sessions s.next = some session) {outcome : Outcome}
    (returned : session.program = .done outcome) :
    ∃ result outcomes, outcome = .ended result ∧
      Partition S m request lease state s.next log t outcomes result := by
  have hof := ((Keyed.reachable hs).idle id (m, lease) idle).2
  have hwf := hof.wf state hstate
  have hstart : Step S s (startedOn S s m request lease id) :=
    .startOn s m request lease id (by rcases hreq with rfl | rfl <;> rfl) idle free
  have hstarted : Reachable S (startedOn S s m request lease id) := .step hs hstart
  have ht : Reachable S t := hrun.reachable hstarted
  obtain ⟨htranscript, hhandle⟩ := hrun.transcript (Nat.lt_succ_self _) (Function.update_self ..)
    running
  have hcalls := hrun.handled hstarted
  have hnamed : ∀ e ∈ Run.own s.next log, ManagerNamed e.op e.answer := fun e he =>
    (hcalls _ (Run.mem_own.mp he)).2
  rw [returned] at htranscript
  obtain ⟨result, outcomes, rfl, hended⟩ := Request.ended_calls hreq hof.wf hstate hnamed htranscript
  have hkey : session.key s.next = lease.leaseId := by simp [Session.key, hhandle]
  refine ⟨result, outcomes, rfl, ⟨fun ref href => ?_, fun ref href hok => ?_, fun ref href hok => ?_,
    fun r e he hrelease => ?_, fun hall => ?_, fun hfailed => ?_, fun ref href hok u hsteps j a o k
      hj hja program => ?_⟩⟩
  · obtain ⟨before, front, block, back, after, heq, -, -, hblock⟩ := (hended.resource href).split
    exact ⟨before ++ front, block, back ++ after, by rw [heq]; simp, hblock⟩
  · have hresource := hended.resource href
    rw [hok] at hresource
    have hgone := hrun.removed_of_resourceCalls hstarted hresource
    rwa [hwf.lease ref href] at hgone
  · have hresource := hended.resource href
    rw [hok] at hresource
    exact hrun.released_of_endedBy hstarted hended hresource
      ((hwf.locked ref.resource).mpr (List.mem_map_of_mem href))
  · have hmem := Run.mem_own.mpr he
    rcases hended.calls e hmem with ⟨ref, href, htears⟩ | henforce
    · rw [hrelease] at htears
      obtain rfl : r = ref.resource := htears
      exact ⟨ref, href, rfl, isOk_iff.mp ((hended.resource href).isOk_of_release hnamed hmem hrelease)⟩
    · exact absurd (hrelease.symm.trans henforce) (by simp)
  · rcases hended.result_eq hwf with ⟨-, hresult⟩ | ⟨error, -, ref, href, herror⟩
    · exact hresult
    · exact absurd ((hall ref href).symm.trans herror) (by simp)
  · rcases hended.result_eq hwf with ⟨hall, -⟩ | ⟨error, hresult, hreported⟩
    · obtain ⟨ref, href, hne⟩ := hfailed
      exact absurd (hall ref href) hne
    · exact ⟨error, hresult, hreported⟩
  · have hapart := apart_of_ended hended hwf ht running hkey returned hok
    exact (hapart.steps ht hsteps).1.spares hj hja program

/-- A scope of two interfaces. -/
def bothInterfaces : Topology where
  resolve _ _ := .ok [.loopback, .ethernet]
  nodup _ _ resources h := by
    obtain rfl := Except.ok.inj h
    decide

/-- A lease over both interfaces. -/
def bothLeased : Lease where
  leaseId := 0
  resources := [.loopback, .ethernet]
  isNoop := false
  state := some ⟨[⟨0, .loopback⟩, ⟨0, .ethernet⟩], [.ethernet, .loopback], .active⟩

/-- Whether the program stopped with an error that hands the lease back. -/
def handsBack (lease : Lease) : FakeManaged Outcome → Bool
  | .done (.ended (.error (_, left))) => decide (left = lease)
  | _ => false

lemma handsBack_iff {program : FakeManaged Outcome} (h : handsBack lease program = true) :
    ∃ error, program = .done (.ended (.error (error, lease))) := by
  unfold handsBack at h
  split at h
  · rename_i error left
    obtain rfl := of_decide_eq_true h
    exact ⟨error, rfl⟩
  · exact absurd h (by simp)

/-- A restore that fails on the second of two interfaces. -/
def secondFails : List Fate :=
  List.replicate 32 .proceed ++ [.fail "status", .proceed, .proceed]

/-- The first interface leaves the lease, the second stays with its lock. -/
theorem teardown_partition_bothInterfaces : ∃ (s t : System) (log : List (SessionId × WorldExchange))
    (error : Error) (outcomes : ResourceId → Except Error Unit),
      s.leases 0 = some (0, bothLeased) ∧
        Partition (unrestricted .cooperative) 0 (.restore 0) bothLeased
          ⟨[⟨0, .loopback⟩, ⟨0, .ethernet⟩], [.ethernet, .loopback], .active⟩ s.next log t outcomes
          (.error (error, { bothLeased with
            state := some ⟨[⟨0, .ethernet⟩], [.ethernet], .restoring⟩ })) := by
  have hfree : ∀ (s : System) (claims : ResourceId → Prop),
      s.Free (unrestricted .cooperative) claims := fun _ _ hserial => hserial.elim
  have hrun : ((pristine (World.pristine bothInterfaces .empty)).performAll
      (unrestricted .cooperative) [.start 0 (.apply ⟨.global, [], [], [], some true⟩), .run 0 53,
        .finish 0]).any (fun s => decide (s.next = 1) && decide (s.leases 0 = some (0, bothLeased)) &&
          ((startedOn (unrestricted .cooperative) s 0 (.restore 0) bothLeased 0).performCalls 1
            secondFails).any fun t => (t.sessions 1).any fun session => handsBack { bothLeased with
              state := some ⟨[⟨0, .ethernet⟩], [.ethernet], .restoring⟩ } session.program) = true := by
    decide +kernel
  obtain ⟨s, hs, hrest⟩ := (Option.any_eq_true _ _).mp hrun
  rw [Bool.and_eq_true, Bool.and_eq_true] at hrest
  obtain ⟨⟨hnext, hidle⟩, hcalls⟩ := hrest
  have hnext : s.next = 1 := of_decide_eq_true hnext
  have hidle : s.leases 0 = some (0, bothLeased) := of_decide_eq_true hidle
  obtain ⟨t, ht, hsession⟩ := (Option.any_eq_true _ _).mp hcalls
  obtain ⟨session, running, hands⟩ := (Option.any_eq_true _ _).mp hsession
  obtain ⟨error, returned⟩ := handsBack_iff hands
  have hcomputed := computed_performAll (S := unrestricted .cooperative) (fun _ => trivial)
    (fun h => h) hs
  have hstarted : Computed (unrestricted .cooperative)
      (startedOn (unrestricted .cooperative) s 0 (.restore 0) bothLeased 0) := by
    obtain ⟨hstep, hclaims⟩ := hcomputed.spawn
      (u := { s with leases := Function.update s.leases 0 none }) rfl
      (.startOn s 0 (.restore 0) bothLeased 0 rfl hidle (hfree s _)) fun r hr => by
        simpa [mayCall] using hr
    exact ⟨.step hcomputed.reachable hstep, hclaims⟩
  obtain ⟨log, hlog⟩ := Run.of_steps (hstarted.calls_steps (fun _ _ => .inr fun _ => trivial) ht)
  obtain ⟨result, outcomes, hended, hpartition⟩ := teardown_partition hcomputed.reachable
    (.inl rfl) hidle rfl (hfree s _) hlog (by rw [hnext]; exact running) returned
  obtain rfl := Outcome.ended.inj hended
  exact ⟨s, t, log, error, outcomes, hidle, hpartition⟩

end Theorem

end System

end Osdns
