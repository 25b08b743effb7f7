import Osdns.Framework.Discipline
import Osdns.Recovery.Local
import Osdns.Serial.Cell

/-!
# The recovery of one record

What `recoverRecord` does to the cell of its record when nobody else is at work: every way out,
with what it means for the native state and for the record.  Faults may strike any call.
-/

namespace Osdns

open Interaction
open Interaction.Fallible (ask value attempt)
open Engine

variable {F : Faults} {caps : Capabilities} {r : ResourceId} {ctx : Context} {α β : Type}
variable {c d e : Cell} {x : FakeRecord}

/-! ## Calls -/

/-- An engine program that calls on `r` only. -/
abbrev EngineLocal (r : ResourceId) (p : Engine FakeSnapshotData FakeIdentity α) : Prop :=
  p.Only (fun _ _ => True) fun o => CallsOn r (.engine o)

lemma EngineLocal.alone {p : Engine FakeSnapshotData FakeIdentity α} (hp : EngineLocal r p) :
    Alone r (engine p) :=
  Program.Only.lift (fun _ h => h) (fun _ _ _ => trivial) hp

lemma local_fire (point : TxPoint) :
    EngineLocal r (fire point : Engine FakeSnapshotData FakeIdentity _) :=
  ⟨.inr ⟨point, rfl⟩, fun _ _ => trivial⟩

lemma local_status {site : Site} {identity : FakeResourceIdentity} (hr : identity.resource = r) :
    EngineLocal r (resourceStatus site identity) :=
  ⟨.inl ⟨congrArg some hr, fun _ _ => rfl, fun _ _ => ⟨_, _, rfl⟩⟩, fun _ _ => trivial⟩

lemma local_readback (site : Site) :
    EngineLocal r (readback site r : Engine FakeSnapshotData FakeIdentity _) :=
  ⟨.inl ⟨rfl, fun _ _ => rfl, fun _ _ => ⟨_, _, rfl⟩⟩, fun _ _ => trivial⟩

lemma local_capture : EngineLocal r (capture r : Engine FakeSnapshotData FakeIdentity _) :=
  ⟨.inl ⟨rfl, fun _ _ => rfl, fun _ _ => ⟨_, _, rfl⟩⟩, fun _ _ => trivial⟩

lemma local_restoreGuarded (cause : Cause) (expected target : FakeSnapshot) :
    EngineLocal r (restoreGuarded cause r expected target) :=
  ⟨.inl ⟨rfl, fun _ _ => rfl, fun _ _ => ⟨_, _, rfl⟩⟩, fun _ _ => trivial⟩

lemma local_journalWrite (hr : x.resource = r) : EngineLocal r (journalWrite x) := by
  subst hr
  refine ⟨.inl ⟨rfl, fun w hw => ?_, fun _ _ => ⟨_, _, rfl⟩⟩, fun _ _ => trivial⟩
  simp [World.account, List.insert_of_mem hw]

lemma local_journalRemove (lease : LeaseId) (removal : Removal) :
    EngineLocal r (journalRemove lease r removal : Engine FakeSnapshotData FakeIdentity _) :=
  ⟨.inl ⟨rfl, fun _ _ => rfl, fun _ _ => ⟨_, _, rfl⟩⟩, fun _ _ => trivial⟩

/-! ## Programs -/

section Programs

variable {identity : FakeResourceIdentity} {pending : PendingRollback FakeSnapshotData}

lemma local_restoreBound {cause : Cause} {expected target : FakeSnapshot}
    (hr : identity.resource = r) :
    EngineLocal r (restoreBound (fakeBackend caps) cause identity expected target) := by
  subst hr
  refine (local_status rfl).bind fun answer => ?_
  rcases answer with _ | (_ | _ | _ | _)
  · trivial
  · exact local_restoreGuarded ..
  all_goals trivial

lemma local_verifyCompensation (hr : identity.resource = r) :
    EngineLocal r (verifyCompensation (fakeBackend caps) identity pending).run := by
  subst hr
  refine Fallible.only_bind (local_readback _) fun now => ?_
  refine Fallible.only_bind (local_status rfl) fun status => ?_
  dsimp only
  split
  · trivial
  · split <;> trivial

lemma local_compensate {L : LeaseId} {afterRestore : Option TxPoint}
    (hr : identity.resource = r) :
    EngineLocal r (compensate (fakeBackend caps) L identity pending afterRestore) := by
  unfold compensate
  refine (local_status hr).bind fun answer => ?_
  split
  · trivial
  split
  · trivial
  refine (hr ▸ local_readback _ : EngineLocal r _).bind fun answer => ?_
  split
  · trivial
  split
  · split <;> trivial
  split
  · trivial
  split
  · trivial
  refine (local_restoreBound hr).bind fun answer => ?_
  split
  · trivial
  · trivial
  · trivial
  · dsimp only
    split
    · exact (local_verifyCompensation hr).bind fun _ => trivial
    · refine (local_fire _).bind fun answer => ?_
      split
      · trivial
      · exact (local_verifyCompensation hr).bind fun _ => trivial

lemma local_finishRecovery (hr : x.resource = r) (outcome : RecoveryOutcome) :
    EngineLocal r (finishRecovery x outcome).run := by
  subst hr
  refine Fallible.only_bind (local_journalRemove _ _) fun _ => ?_
  exact Fallible.only_bind (local_fire _) fun _ => trivial

lemma local_recoverRecord (hr : x.resource = r) (hi : x.identity.resource = r) :
    EngineLocal r (recoverRecord (fakeBackend caps) x).run := by
  have hremove : ∀ (removal : Removal) (outcome : RecoveryOutcome), EngineLocal r (do
      ask (journalRemove x.leaseId x.resource removal)
      return outcome : EngineResult FakeSnapshotData FakeIdentity RecoveryOutcome).run :=
    fun _ _ => Fallible.only_bind (hr ▸ local_journalRemove _ _) fun _ => trivial
  refine Fallible.only_bind (local_status hi) fun status => ?_
  cases status with
  | gone => exact hremove ..
  | replaced => exact hremove ..
  | ambiguous => trivial
  | same =>
      refine Fallible.only_value (hr ▸ local_capture) fun answer => ?_
      split
      · exact hremove ..
      · trivial
      refine Fallible.only_bind (local_fire _) fun _ => ?_
      split
      · exact local_finishRecovery hr _
      split
      · refine Fallible.only_value (local_compensate hi) fun answer => ?_
        split
        · refine Fallible.only_bind (local_journalWrite hr) fun _ => ?_
          split <;> trivial
        · exact local_finishRecovery hr _
      · trivial

end Programs

/-! ## Answers -/

section Answers

variable {identity : FakeResourceIdentity} {site : Site}

/-- A call on the cell alone is a call on the cell among others. -/
lemma engineHandler_of_alone {o : EngineOp FakeSnapshotData FakeIdentity}
    {answer : EngineRet FakeSnapshotData FakeIdentity o} (ho : o.target = some r)
    (h : Cell.engineAlone F ctx r o c answer d) :
    Cell.engineHandler F ctx.session ctx.manager r o c answer d := by
  obtain ⟨fate, hF, ⟨-, hexec⟩ | ⟨hn, -⟩⟩ := h
  · unfold Cell.engineHandler Cell.handler
    rw [if_pos (show (ManagerOp.engine o).target = some r from ho)]
    exact ⟨ctx.now, ctx.nextToken, fate, hF, hexec⟩
  · exact absurd (hn.symm.trans ho) (by simp)

lemma runs_fire {point : TxPoint} {answer : Except Error Unit}
    (h : (fire point : Engine FakeSnapshotData FakeIdentity _).Runs (Cell.engineAlone F ctx r) c
      answer d) :
    d = c ∧ (answer = .ok () ∨
      (∃ error : Error, error.isExternalModification = false ∧ answer = .error error) ∧ ∃ o, F o) := by
  obtain ⟨_, _, ⟨fate, hF, ⟨hn, -⟩ | ⟨-, rfl, h⟩⟩, rfl, rfl⟩ := h
  · exact absurd hn (by simp [ManagerOp.target, EngineOp.target])
  · have h := h (World.pristine (.single r) .empty)
    cases fate <;> simp only [World.execGlobal, Option.some.injEq, Prod.mk.injEq] at h <;>
      obtain ⟨rfl, -⟩ := h
    · exact ⟨rfl, .inl rfl⟩
    · exact ⟨rfl, .inr ⟨⟨_, rfl, rfl⟩, _, by simpa using hF⟩⟩
    · exact ⟨rfl, .inr ⟨⟨_, rfl, rfl⟩, _, by simpa using hF⟩⟩

lemma runs_status {answer : Except Error ResourceStatus} (hr : identity.resource = r)
    (h : (resourceStatus site identity : Engine FakeSnapshotData FakeIdentity _).Runs
      (Cell.engineAlone F ctx r) c answer d) :
    d = c ∧ (answer = c.resourceStatus identity ∨
      (∃ message, answer = .error (Cell.injected message)) ∧ ∃ o, F o) := by
  obtain ⟨_, _, h, rfl, rfl⟩ := h
  obtain ⟨rfl, ha⟩ := Cell.engineHandler_status
    (engineHandler_of_alone (by simp [EngineOp.target, hr]) h) hr
  exact ⟨rfl, ha.imp_right fun ha => ⟨ha.1, _, ha.2⟩⟩

lemma runs_readback {answer : Except Error FakeSnapshot}
    (h : (readback site r : Engine FakeSnapshotData FakeIdentity _).Runs
      (Cell.engineAlone F ctx r) c answer d) :
    d = c ∧ (answer = c.read r ∨
      (∃ message, answer = .error (Cell.injected message)) ∧ ∃ o, F o) := by
  obtain ⟨_, _, h, rfl, rfl⟩ := h
  obtain ⟨rfl, ha⟩ := Cell.engineHandler_readback (engineHandler_of_alone rfl h)
  exact ⟨rfl, ha.imp_right fun ha => ⟨ha.1, _, ha.2⟩⟩

lemma runs_capture {answer : Except Error FakeSnapshot}
    (h : (capture r : Engine FakeSnapshotData FakeIdentity _).Runs
      (Cell.engineAlone F ctx r) c answer d) :
    d = c ∧ (answer = c.read r ∨
      (∃ message, answer = .error (Cell.injected message)) ∧ ∃ o, F o) := by
  obtain ⟨_, _, h, rfl, rfl⟩ := h
  obtain ⟨rfl, ha⟩ := Cell.engineHandler_capture (engineHandler_of_alone rfl h)
  exact ⟨rfl, ha.imp_right fun ha => ⟨ha.1, _, ha.2⟩⟩

/-- A restoration over the current snapshot fails or is performed. -/
lemma runs_restoreGuarded {cause : Cause} {p target : FakeSnapshot}
    {answer : MutationAttempt FakeSnapshotData} (hp : c.snapshot r = some p) (ht : target.Of r)
    (h : (restoreGuarded cause r p target : Engine FakeSnapshotData FakeIdentity _).Runs
      (Cell.engineAlone F ctx r) c answer d) :
    (d = c ∧ (∃ message, answer = .indeterminate (Cell.injected message) none) ∧ ∃ o, F o) ∨
      ∃ now, d = c.mutate cause p.data.state target.data.state now ∧
        answer = .performed (some (c.produced r target.data.state)) := by
  obtain ⟨hof, hs, hg⟩ := Cell.snapshot_eq_some hp
  obtain ⟨_, _, h, rfl, rfl⟩ := h
  obtain ⟨now, token, fate, hF, h⟩ := Cell.engineHandler_exec (engineHandler_of_alone rfl h) rfl
  have hdata : p.data = ⟨p.data.state, c.generation⟩ := by rw [← hg]
  cases fate with
  | proceed =>
      simp only [Cell.execEngine, Cell.restoreGuarded, hof.2, ht.2, ne_eq, not_true_eq_false,
        or_self, if_false, interpretFull_of hof, interpretFull_of ht, hs, if_pos hdata,
        Option.some.injEq, Prod.mk.injEq] at h
      exact .inr ⟨now, h.2.symm, h.1.symm⟩
  | fail message =>
      simp only [Cell.execEngine, Cell.restoreGuarded, Option.some.injEq, Prod.mk.injEq] at h
      exact .inl ⟨h.2.symm, ⟨_, h.1.symm⟩, _, by simpa using hF⟩
  | failAfter message =>
      simp only [Cell.execEngine, Cell.restoreGuarded, Option.some.injEq, Prod.mk.injEq] at h
      exact .inl ⟨h.2.symm, ⟨_, h.1.symm⟩, _, by simpa using hF⟩

/-- What a cell becomes when the publication of a record is attempted. -/
def Cell.Published (record : FakeRecord) (c d : Cell) : Prop :=
  ∃ confirmed, d = { c with confirmed } ∨ d = { c.publish record with confirmed }

lemma runs_journalWrite {record : FakeRecord} {answer : Except Error Unit}
    (hr : record.resource = r)
    (h : (journalWrite record).Runs (Cell.engineAlone F ctx r) c answer d) :
    c.Published record d := by
  obtain ⟨_, _, h, rfl, rfl⟩ := h
  rcases Cell.engineHandler_journalWrite (engineHandler_of_alone (by simp [EngineOp.target, hr]) h)
    hr with ⟨-, rfl⟩ | ⟨-, -, _, rfl | rfl, rfl⟩
  · exact ⟨_, .inr rfl⟩
  · exact ⟨_, .inl rfl⟩
  · exact ⟨_, .inr rfl⟩

/-- What a cell becomes when the removal of a record is attempted. -/
def Cell.Removed (lease : LeaseId) (removal : Removal) (c d : Cell) : Prop :=
  d = c.attemptRemoval lease removal c.journal ∨
    d = c.attemptRemoval lease removal (c.journal.erase lease)

lemma runs_journalRemove {lease : LeaseId} {removal : Removal} {answer : Except Error Unit}
    (h : (journalRemove lease r removal : Engine FakeSnapshotData FakeIdentity _).Runs
      (Cell.engineAlone F ctx r) c answer d) :
    (answer = .ok () ∧ d = c.attemptRemoval lease removal (c.journal.erase lease)) ∨
      ((∃ error, answer = .error error) ∧ (∃ o, F o) ∧ c.Removed lease removal d) := by
  obtain ⟨_, _, h, rfl, rfl⟩ := h
  refine (Cell.engineHandler_journalRemove (engineHandler_of_alone rfl h)).imp id ?_
  rintro ⟨ha, hF, journal, hj, rfl⟩
  exact ⟨ha, ⟨_, hF⟩, hj.imp (fun h => by rw [h]) fun h => by rw [h]⟩

end Answers

/-! ## Restoring over owned state -/

section Restoring

variable {identity : FakeResourceIdentity} {p target : FakeSnapshot} {cause : Cause} {L : LeaseId}

/-- The leased native resource is there. -/
lemma Cell.status_same (h : c.resourceStatus identity = .ok .same) :
    identity.backend = .fake ∧ ∃ state, c.state = some state := by
  unfold Cell.resourceStatus at h
  split at h
  · exact absurd h (by simp)
  · rename_i hb
    cases hs : c.state with
    | some state => exact ⟨not_not.mp hb, state, rfl⟩
    | none => simp [hs] at h; split at h <;> simp at h

lemma Cell.status_mutate (h : c.resourceStatus identity = .ok .same) {old new : FakeState}
    {now : Instant} : (c.mutate cause old new now).resourceStatus identity = .ok .same := by
  obtain ⟨hb, state, hs⟩ := Cell.status_same h
  unfold Cell.resourceStatus at h ⊢
  rw [if_neg (not_not.mpr hb)] at h ⊢
  change (if c.ambiguous then _ else if false then _ else _) = _
  rw [hs] at h
  exact h

lemma Cell.snapshot_mutate {old new : FakeState} {now : Instant} :
    (c.mutate cause old new now).snapshot r = some (c.produced r new) := rfl

/-- An error that faults alone explain. -/
def Faulty (F : Faults) (error : Error) : Prop :=
  error.isExternalModification = false ∧ ∃ o, F o

/-- A status check of the leased resource answers so, or fails by a fault. -/
lemma runs_status_same {site : Site} {answer : Except Error ResourceStatus}
    (hr : identity.resource = r) (hs : c.resourceStatus identity = .ok .same)
    (h : (resourceStatus site identity : Engine FakeSnapshotData FakeIdentity _).Runs
      (Cell.engineAlone F ctx r) c answer d) :
    d = c ∧ (answer = .ok .same ∨ ∃ error, Faulty F error ∧ answer = .error error) := by
  obtain ⟨rfl, ha⟩ := runs_status hr h
  refine ⟨rfl, ?_⟩
  rcases ha with rfl | ⟨⟨message, rfl⟩, hF⟩
  · exact .inl hs
  · exact .inr ⟨_, ⟨rfl, hF⟩, rfl⟩

/-- A read-back of a present resource answers its snapshot, or fails by a fault. -/
lemma runs_readback_present {site : Site} {answer : Except Error FakeSnapshot}
    (hp : c.snapshot r = some p)
    (h : (readback site r : Engine FakeSnapshotData FakeIdentity _).Runs
      (Cell.engineAlone F ctx r) c answer d) :
    d = c ∧ (answer = .ok p ∨ ∃ error, Faulty F error ∧ answer = .error error) := by
  obtain ⟨rfl, ha⟩ := runs_readback h
  refine ⟨rfl, ?_⟩
  rcases ha with rfl | ⟨⟨message, rfl⟩, hF⟩
  · exact .inl (by simp [Cell.read, hp])
  · exact .inr ⟨_, ⟨rfl, hF⟩, rfl⟩

/-- Restoring `target` over the current snapshot `p`: a fault stopped it, or it is in effect. -/
lemma runs_restoreBound {answer : MutationAttempt FakeSnapshotData}
    (hr : identity.resource = r) (hs : c.resourceStatus identity = .ok .same)
    (hp : c.snapshot r = some p) (ht : target.Of r)
    (h : (restoreBound (fakeBackend caps) cause identity p target).Runs
      (Cell.engineAlone F ctx r) c answer d) :
    (d = c ∧ ∃ error, Faulty F error ∧
        (answer = .rejected error ∨ answer = .indeterminate error none)) ∨
      ∃ now, d = c.mutate cause p.data.state target.data.state now ∧
        answer = .performed (some (c.produced r target.data.state)) := by
  subst hr
  obtain ⟨status, u, hstatus, hk⟩ := Program.runs_bind.mp h
  obtain ⟨rfl, rfl | ⟨error, herror, rfl⟩⟩ := runs_status_same rfl hs hstatus
  · refine (runs_restoreGuarded hp ht hk).imp_left ?_
    rintro ⟨rfl, ⟨message, rfl⟩, hF⟩
    exact ⟨rfl, _, ⟨rfl, hF⟩, .inr rfl⟩
  · obtain ⟨rfl, rfl⟩ := hk
    exact .inl ⟨rfl, error, herror, .inl rfl⟩

/-- The read-back of a performed restore fails by a fault or finds the restored state. -/
lemma runs_verifyCompensation {answer : Except Error (Option FakeSnapshot)}
    (hr : identity.resource = r) (hs : c.resourceStatus identity = .ok .same)
    (hp : c.snapshot r = some p) (ht : target.Of r) (he : p.data.state = target.data.state)
    (h : (verifyCompensation (fakeBackend caps) identity ⟨some p, target⟩).run.Runs
      (Cell.engineAlone F ctx r) c answer d) :
    d = c ∧ ((∃ error, Faulty F error ∧ answer = .error error) ∨ ∃ proof, answer = .ok proof) := by
  subst hr
  obtain ⟨hof, -, -⟩ := Cell.snapshot_eq_some hp
  unfold verifyCompensation at h
  rcases Fallible.runs_bind.mp h with ⟨now, u, hnow, hk⟩ | ⟨error, hnow, rfl⟩
  · obtain ⟨rfl, hnow | ⟨error, -, hnow⟩⟩ := runs_readback_present hp hnow
    swap
    · exact absurd hnow (by simp)
    obtain rfl := Except.ok.inj hnow
    rcases Fallible.runs_bind.mp hk with ⟨status, v, hstatus, hend⟩ | ⟨error, hstatus, rfl⟩
    · obtain ⟨rfl, hstatus | ⟨error, -, hstatus⟩⟩ := runs_status_same rfl hs hstatus
      swap
      · exact absurd hstatus (by simp)
      obtain rfl := Except.ok.inj hstatus
      have hequivalent : (fakeBackend caps).equivalent now target = true :=
        (fakeBackend_equivalent hof ht).mpr he
      dsimp only at hend
      rw [if_neg (by simp [hequivalent])] at hend
      split at hend
      · obtain ⟨rfl, rfl⟩ := hend
        exact ⟨rfl, .inr ⟨_, rfl⟩⟩
      · obtain ⟨rfl, rfl⟩ := hend
        exact ⟨rfl, .inr ⟨_, rfl⟩⟩
    · obtain ⟨rfl, hstatus | ⟨error', herror, hstatus⟩⟩ := runs_status_same rfl hs hstatus
      · exact absurd hstatus (by simp)
      · obtain rfl := Except.error.inj hstatus
        exact ⟨rfl, .inl ⟨_, herror, rfl⟩⟩
  · obtain ⟨rfl, hnow | ⟨error', herror, hnow⟩⟩ := runs_readback_present hp hnow
    · exact absurd hnow (by simp)
    · obtain rfl := Except.error.inj hnow
      exact ⟨rfl, .inl ⟨_, herror, rfl⟩⟩

/-- Compensating from evidence that is current: a fault stopped it, before or after the native
effect, or the target is in effect. -/
lemma runs_compensate {point : TxPoint} {answer : Except Error (Option FakeSnapshot)}
    {pending : PendingRollback FakeSnapshotData} (hr : identity.resource = r)
    (hs : c.resourceStatus identity = .ok .same) (hp : c.snapshot r = some p) (ht : target.Of r)
    (hne : p.data.state ≠ target.data.state)
    (h : (compensate (fakeBackend caps) L identity ⟨some p, target⟩ (some point)).Runs
      (Cell.engineAlone F ctx r) c (answer, pending) d) :
    (∀ q, pending.evidence = some q → q.Of r) ∧
      ((∃ error, Faulty F error ∧ answer = .error error ∧
          (d = c ∨ ∃ now, d = c.mutate ⟨L, false⟩ p.data.state target.data.state now)) ∨
        ∃ proof now, answer = .ok proof ∧
          d = c.mutate ⟨L, false⟩ p.data.state target.data.state now) := by
  subst hr
  obtain ⟨hof, -, -⟩ := Cell.snapshot_eq_some hp
  have hkeep : ∀ q, (some p : Option FakeSnapshot) = some q → q.Of identity.resource := by
    intro q hq
    obtain rfl := Option.some.inj hq
    exact hof
  unfold compensate at h
  obtain ⟨status, u, hstatus, hk⟩ := Program.runs_bind.mp h
  obtain ⟨rfl, rfl | ⟨error, herror, rfl⟩⟩ := runs_status_same rfl hs hstatus
  swap
  · obtain ⟨ha, rfl⟩ := hk
    obtain ⟨rfl, rfl⟩ := Prod.mk.inj ha
    exact ⟨hkeep, .inl ⟨error, herror, rfl, .inl rfl⟩⟩
  dsimp only at hk
  rw [if_neg (by simp)] at hk
  obtain ⟨current, v, hcurrent, hk'⟩ := Program.runs_bind.mp hk
  obtain ⟨rfl, rfl | ⟨error, herror, rfl⟩⟩ := runs_readback_present hp hcurrent
  swap
  · obtain ⟨ha, rfl⟩ := hk'
    obtain ⟨rfl, rfl⟩ := Prod.mk.inj ha
    exact ⟨hkeep, .inl ⟨error, herror, rfl, .inl rfl⟩⟩
  dsimp only at hk'
  have hequivalent : (fakeBackend caps).equivalent p target ≠ true := fun heq =>
    hne ((fakeBackend_equivalent hof ht).mp heq)
  have howns : (fakeBackend caps).ownsCurrent p p = true :=
    (fakeBackend_provesCurrent hof hof).mpr rfl
  rw [if_neg hequivalent, if_neg (by simp [howns])] at hk'
  obtain ⟨attempt, w, hattempt, hend⟩ := Program.runs_bind.mp hk'
  rcases runs_restoreBound rfl hs hp ht hattempt with
    ⟨rfl, error, herror, rfl | rfl⟩ | ⟨now, rfl, rfl⟩
  · obtain ⟨ha, rfl⟩ := hend
    obtain ⟨rfl, rfl⟩ := Prod.mk.inj ha
    exact ⟨hkeep, .inl ⟨error, herror, rfl, .inl rfl⟩⟩
  · obtain ⟨ha, rfl⟩ := hend
    obtain ⟨rfl, rfl⟩ := Prod.mk.inj ha
    exact ⟨hkeep, .inl ⟨error, herror, rfl, .inl rfl⟩⟩
  · -- the restore was performed: the checkpoint or the read-back may still fail
    have hproduced : ∀ q, (some (v.produced identity.resource target.data.state) :
        Option FakeSnapshot) = some q → q.Of identity.resource := by
      intro q hq
      obtain rfl := Option.some.inj hq
      exact ⟨rfl, rfl⟩
    dsimp only at hend
    obtain ⟨fired, w, hfire, hverify⟩ := Program.runs_bind.mp hend
    obtain ⟨rfl, rfl | ⟨⟨error, hext, rfl⟩, hF⟩⟩ := runs_fire hfire
    · obtain ⟨result, w, hresult, ha, rfl⟩ := Program.runs_bind.mp hverify
      obtain ⟨rfl, rfl⟩ := Prod.mk.inj ha
      obtain ⟨rfl, ⟨error, herror, rfl⟩ | ⟨proof, rfl⟩⟩ :=
        runs_verifyCompensation rfl (Cell.status_mutate hs) Cell.snapshot_mutate ht rfl hresult
      · exact ⟨hproduced, .inl ⟨error, herror, rfl, .inr ⟨now, rfl⟩⟩⟩
      · exact ⟨hproduced, .inr ⟨proof, now, rfl, rfl⟩⟩
    · obtain ⟨ha, rfl⟩ := hverify
      obtain ⟨rfl, rfl⟩ := Prod.mk.inj ha
      exact ⟨hproduced, .inl ⟨error, ⟨hext, hF⟩, rfl, .inr ⟨now, rfl⟩⟩⟩

end Restoring

/-! ## The ways out of a recovery -/

/-- The native step of a recovery: none, or the base is written over the published evidence. -/
def RestoresNative (r : ResourceId) (x : FakeRecord) (c d : Cell) : Prop :=
  d = c ∨ ∃ p now, x.applied = some p ∧ c.snapshot r = some p ∧
    p.data.state ≠ x.before.data.state ∧
    d = c.mutate ⟨x.leaseId, false⟩ p.data.state x.before.data.state now

/-- The journal step of a failed recovery: none, an attempted removal, or the attempted
publication of newer evidence. -/
def RewritesRecord (r : ResourceId) (x : FakeRecord) (c d : Cell) : Prop :=
  d = c ∨ (∃ removal, c.Removed x.leaseId removal d) ∨
    ∃ evidence, x.identity.backend = .fake ∧ (∀ q, evidence = some q → q.Of r) ∧
      c.Published { x with phase := .prepared, applied := evidence } d

/-- What recovering the record `x` of the resource `r` may answer and make of the cell. -/
inductive Recovers (F : Faults) (r : ResourceId) (x : FakeRecord) (c : Cell) :
    Except Error RecoveryOutcome → Cell → Prop
  | failed {error : Error} {d e : Cell}
      (failure : (∃ o, F o) ∨ ∃ error, c.resourceStatus x.identity = .error error)
      (native : RestoresNative r x c d) (journal : RewritesRecord r x d e) :
      Recovers F r x c (.error error) e
  | mismatch (status : c.resourceStatus x.identity = .ok .ambiguous) :
      Recovers F r x c (.ok (.identityMismatch x.resource x.leaseId)) c
  | gone (status : c.resourceStatus x.identity = .ok .gone) :
      Recovers F r x c (.ok (.gone x.resource x.leaseId))
        (c.attemptRemoval x.leaseId .lifetime (c.journal.erase x.leaseId))
  | replaced (status : c.resourceStatus x.identity = .ok .replaced) :
      Recovers F r x c (.ok (.replaced x.resource x.leaseId))
        (c.attemptRemoval x.leaseId .lifetime (c.journal.erase x.leaseId))
  | cleared {p : FakeSnapshot} (status : c.resourceStatus x.identity = .ok .same)
      (snapshot : c.snapshot r = some p) (same : p.data.state = x.before.data.state) :
      Recovers F r x c (.ok (.journalCleared x.resource x.leaseId))
        (c.attemptRemoval x.leaseId .settled (c.journal.erase x.leaseId))
  | conflict {p : FakeSnapshot} (status : c.resourceStatus x.identity = .ok .same)
      (snapshot : c.snapshot r = some p) (differs : p.data.state ≠ x.before.data.state)
      (foreign : x.applied ≠ some p) :
      Recovers F r x c (.ok (.externalConflict x.resource x.leaseId)) c
  | restored {p : FakeSnapshot} {now : Instant}
      (status : c.resourceStatus x.identity = .ok .same) (snapshot : c.snapshot r = some p)
      (differs : p.data.state ≠ x.before.data.state) (owned : x.applied = some p) :
      Recovers F r x c (.ok (.restored x.resource x.leaseId))
        ((c.mutate ⟨x.leaseId, false⟩ p.data.state x.before.data.state now).attemptRemoval x.leaseId
          .settled (c.journal.erase x.leaseId))

/-- A record as a readable journal holds it: filed under its lease and resource, and naming one
resource and one backend throughout. -/
structure Filed (r : ResourceId) (L : LeaseId) (x : FakeRecord) : Prop where
  leaseId : x.leaseId = L
  resource : x.resource = r
  identity : x.identity.backend = x.backend ∧ x.identity.resource = r
  before : x.before.backend = x.backend ∧ x.before.resource = r
  applied : ∀ p, x.applied = some p → p.backend = x.backend ∧ p.resource = r
  evidence : x.phase = .applied → x.applied.isSome = true

namespace Filed

variable {L : LeaseId}

lemma before_of (h : Filed r L x) (hb : x.identity.backend = .fake) : x.before.Of r :=
  ⟨h.before.1.trans (h.identity.1.symm.trans hb), h.before.2⟩

lemma applied_of (h : Filed r L x) (hb : x.identity.backend = .fake) {p : FakeSnapshot}
    (hp : x.applied = some p) : p.Of r :=
  ⟨(h.applied p hp).1.trans (h.identity.1.symm.trans hb), (h.applied p hp).2⟩

end Filed

/-- The end of a recovery: the record is gone, or a fault kept the recovery from finishing. -/
lemma runs_finishRecovery {outcome : RecoveryOutcome} {answer : Except Error RecoveryOutcome}
    (hr : x.resource = r)
    (h : (finishRecovery x outcome).run.Runs (Cell.engineAlone F ctx r) c answer d) :
    (answer = .ok outcome ∧ d = c.attemptRemoval x.leaseId .settled (c.journal.erase x.leaseId)) ∨
      (∃ error, answer = .error error) ∧ (∃ o, F o) ∧ c.Removed x.leaseId .settled d := by
  subst hr
  unfold finishRecovery at h
  rcases Fallible.runs_bind.mp h with ⟨_, u, hremove, hk⟩ | ⟨error, hremove, rfl⟩
  · rcases runs_journalRemove hremove with ⟨-, rfl⟩ | ⟨⟨_, ha⟩, -, -⟩
    swap
    · exact absurd ha (by simp)
    rcases Fallible.runs_bind.mp hk with ⟨_, v, hfire, ha, rfl⟩ | ⟨error, hfire, rfl⟩
    · obtain ⟨rfl, -⟩ := runs_fire hfire
      exact .inl ⟨ha, rfl⟩
    · obtain ⟨rfl, ha | ⟨-, hF⟩⟩ := runs_fire hfire
      · exact absurd ha (by simp)
      · exact .inr ⟨⟨error, rfl⟩, hF, .inr rfl⟩
  · rcases runs_journalRemove hremove with ⟨ha, -⟩ | ⟨-, hF, hd⟩
    · exact absurd ha (by simp)
    · exact .inr ⟨⟨error, rfl⟩, hF, hd⟩

/-- `recoverRecord` by itself takes one of the ways out. -/
lemma runs_recoverRecord {L : LeaseId} {answer : Except Error RecoveryOutcome}
    (hx : Filed r L x)
    (h : (recoverRecord (fakeBackend caps) x).run.Runs (Cell.engineAlone F ctx r) c answer d) :
    Recovers F r x c answer d := by
  have hr := hx.resource
  subst hr
  -- The branches that only remove the record.
  have hlifetime : ∀ {outcome : RecoveryOutcome} {u : Cell} {answer : Except Error RecoveryOutcome},
      (do
        ask (journalRemove x.leaseId x.resource .lifetime)
        return outcome : EngineResult FakeSnapshotData FakeIdentity RecoveryOutcome).run.Runs
          (Cell.engineAlone F ctx x.resource) c answer u →
      (answer = .ok outcome ∧
          u = c.attemptRemoval x.leaseId .lifetime (c.journal.erase x.leaseId)) ∨
        Recovers F x.resource x c answer u := by
    intro outcome u answer h
    rcases Fallible.runs_bind.mp h with ⟨_, v, hremove, rfl, rfl⟩ | ⟨error, hremove, rfl⟩
    · rcases runs_journalRemove hremove with ⟨-, rfl⟩ | ⟨⟨_, ha⟩, -, -⟩
      · exact .inl ⟨rfl, rfl⟩
      · exact absurd ha (by simp)
    · rcases runs_journalRemove hremove with ⟨ha, -⟩ | ⟨-, hF, hd⟩
      · exact absurd ha (by simp)
      · exact .inr (.failed (.inl hF) (.inl rfl) (.inr (.inl ⟨_, hd⟩)))
  unfold recoverRecord at h
  rcases Fallible.runs_bind.mp h with ⟨status, u, hstatus, hk⟩ | ⟨error, hstatus, rfl⟩
  swap
  · obtain ⟨rfl, ha | ⟨-, hF⟩⟩ := runs_status hx.identity.2 hstatus
    · exact .failed (.inr ⟨error, ha.symm⟩) (.inl rfl) (.inl rfl)
    · exact .failed (.inl hF) (.inl rfl) (.inl rfl)
  obtain ⟨rfl, hs | ⟨⟨_, ha⟩, -⟩⟩ := runs_status hx.identity.2 hstatus
  swap
  · exact absurd ha (by simp)
  cases status with
  | gone =>
      rcases hlifetime hk with ⟨rfl, rfl⟩ | hd
      · exact .gone hs.symm
      · exact hd
  | replaced =>
      rcases hlifetime hk with ⟨rfl, rfl⟩ | hd
      · exact .replaced hs.symm
      · exact hd
  | ambiguous =>
      obtain ⟨rfl, rfl⟩ := hk
      exact .mismatch hs.symm
  | same =>
  obtain ⟨hb, state, hstate⟩ := Cell.status_same hs.symm
  obtain ⟨p, hp⟩ : ∃ p, u.snapshot x.resource = some p := by simp [Cell.snapshot, hstate]
  obtain ⟨hof, -, -⟩ := Cell.snapshot_eq_some hp
  obtain ⟨captured, v, hcapture, hk'⟩ := Fallible.runs_value.mp hk
  obtain ⟨rfl, rfl | ⟨⟨message, rfl⟩, hF⟩⟩ := runs_capture hcapture
  swap
  · obtain ⟨rfl, rfl⟩ := hk'
    exact .failed (.inl hF) (.inl rfl) (.inl rfl)
  rw [show v.read x.resource = .ok p by simp [Cell.read, hp]] at hk'
  rcases Fallible.runs_bind.mp hk' with ⟨_, w, hfire, hend⟩ | ⟨error, hfire, rfl⟩
  swap
  · obtain ⟨rfl, ha | ⟨-, hF⟩⟩ := runs_fire hfire
    · exact absurd ha (by simp)
    · exact .failed (.inl hF) (.inl rfl) (.inl rfl)
  obtain ⟨rfl, -⟩ := runs_fire hfire
  split at hend
  · rename_i heq
    have hsame := (fakeBackend_equivalent hof (hx.before_of hb)).mp heq
    rcases runs_finishRecovery rfl hend with ⟨rfl, rfl⟩ | ⟨⟨error, rfl⟩, hF, hd⟩
    · exact .cleared hs.symm hp hsame
    · exact .failed (.inl hF) (.inl rfl) (.inr (.inl ⟨_, hd⟩))
  rename_i heq
  have hdiffers : p.data.state ≠ x.before.data.state := fun hsame =>
    heq ((fakeBackend_equivalent hof (hx.before_of hb)).mpr hsame)
  split at hend
  · rename_i howned
    obtain ⟨q, hq, hproves⟩ := (Option.any_eq_true _ _).mp howned
    obtain rfl : q = p := (fakeBackend_provesCurrent (hx.applied_of hb hq) hof).mp hproves
    obtain ⟨⟨result, pending⟩, y, hcompensate, hafter⟩ := Fallible.runs_value.mp hend
    rw [hq] at hcompensate
    obtain ⟨hevidence, ⟨error, ⟨hext, hF⟩, rfl, hy⟩ | ⟨proof, now, rfl, rfl⟩⟩ :=
      runs_compensate hx.identity.2 hs.symm hp (hx.before_of hb) hdiffers hcompensate
    · have hnative : RestoresNative x.resource x w y := hy.imp id fun hn =>
        hn.elim fun now hn => ⟨q, now, hq, hp, hdiffers, hn⟩
      have hpublished : ∀ {z : Cell} {answer : Except Error Unit},
          (journalWrite { x with phase := .prepared, applied := pending.evidence }).Runs
            (Cell.engineAlone F ctx x.resource) y answer z → RewritesRecord x.resource x y z :=
        fun hz => .inr (.inr ⟨_, hb, hevidence, runs_journalWrite rfl hz⟩)
      rcases Fallible.runs_bind.mp hafter with ⟨_, z, hwrite, hthrow⟩ | ⟨error', hwrite, rfl⟩
      · rw [if_neg (by simp [hext])] at hthrow
        obtain ⟨rfl, rfl⟩ := hthrow
        exact .failed (.inl hF) hnative (hpublished hwrite)
      · exact .failed (.inl hF) hnative (hpublished hwrite)
    · rcases runs_finishRecovery rfl hafter with ⟨rfl, rfl⟩ | ⟨⟨error, rfl⟩, hF, hd⟩
      · exact .restored hs.symm hp hdiffers hq
      · exact .failed (.inl hF) (.inr ⟨q, now, hq, hp, hdiffers, rfl⟩) (.inr (.inl ⟨_, hd⟩))
  · rename_i hforeign
    obtain ⟨rfl, rfl⟩ := hend
    refine .conflict hs.symm hp hdiffers fun hq => hforeign ?_
    rw [hq]
    exact (fakeBackend_provesCurrent hof hof).mpr rfl

end Osdns
