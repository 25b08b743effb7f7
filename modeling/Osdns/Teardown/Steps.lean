import Osdns.Engine.Mandate
import Osdns.System.Runs

/-!
# The teardown of one record

Ending a lease works on one live record after another, by the steps of `restore_state` or of
`abandon_state`.  Either step calls on its own resource only, and it succeeds only after it removed
the resource's journal record, with nothing but checkpoints of the fault hook after the removal.
-/

namespace Osdns

open Interaction
open Interaction.Fallible (ask value attempt)
open Engine

variable {r : ResourceId} {ref : LiveRef} {α β : Type}

/-- The journal record of `ref` was removed. -/
def EngineOp.Removes (ref : LiveRef) : (o : EngineOp FakeSnapshotData FakeIdentity) →
    EngineRet FakeSnapshotData FakeIdentity o → Prop
  | .journalRemove lease resource _, answer =>
      lease = ref.lease ∧ resource = ref.resource ∧ answer = .ok ()
  | _, _ => False

/-- The same for the calls of a manager. -/
def ManagerOp.Removes (ref : LiveRef) : (o : ManagerOp FakeSnapshotData FakeIdentity) →
    ManagerRet FakeSnapshotData FakeIdentity o → Prop
  | .engine o, answer => EngineOp.Removes ref o answer
  | _, _ => False

def EngineOp.IsFire : EngineOp FakeSnapshotData FakeIdentity → Prop
  | .fire _ => True
  | _ => False

def ManagerOp.IsFire : ManagerOp FakeSnapshotData FakeIdentity → Prop
  | .engine o => o.IsFire
  | _ => False

/-! ## Success comes after the removal -/

/-- Whether the record of `ref` was removed, and nothing but checkpoints came after. -/
abbrev removal (ref : LiveRef) : Discipline (EngineRet FakeSnapshotData FakeIdentity) Prop :=
  .since Named (EngineOp.Removes ref) EngineOp.IsFire

/-- The program succeeds only after it removed the record of `ref`. -/
abbrev Settles (ref : LiveRef) (p : Engine FakeSnapshotData FakeIdentity (Except Error α)) :
    Prop :=
  ∀ s : Prop, p.Follows (removal ref) (fun answer s => answer.isOk = true → s) s

/-- An error is no success. -/
lemma of_isOk_error {error : Error} {s : Prop} (h : (.error error : Except Error α).isOk = true) :
    s := absurd h (by simp [Except.isOk, Except.toBool])

lemma settles_error (error : Error) :
    Settles ref (throw error : EngineResult FakeSnapshotData FakeIdentity α).run :=
  fun _ h => of_isOk_error h

lemma settles_value {p : Engine FakeSnapshotData FakeIdentity α} {ψ : α → Prop}
    {k : α → EngineResult FakeSnapshotData FakeIdentity β} (hp : p.Yields Named ψ)
    (hk : ∀ a, ψ a → Settles ref (k a).run) : Settles ref (value p >>= k).run := by
  intro s
  have known : p.Follows (removal ref) (fun a _ => True ∧ ψ a) s :=
    Program.Follows.yields (fun _ _ _ h => h) Discipline.since_any hp
  exact Fallible.follows_value known fun a t ha => hk a ha.2 t

lemma settles_ignore {p : Engine FakeSnapshotData FakeIdentity α}
    {k : α → EngineResult FakeSnapshotData FakeIdentity β} (hk : ∀ a, Settles ref (k a).run) :
    Settles ref (value p >>= k).run :=
  settles_value Program.Yields.any fun a _ => hk a

lemma settles_bind {p : EngineResult FakeSnapshotData FakeIdentity α}
    {k : α → EngineResult FakeSnapshotData FakeIdentity β} (hk : ∀ a, Settles ref (k a).run) :
    Settles ref (p >>= k).run := by
  intro s
  have any : p.run.Follows (removal ref) (fun _ _ => True) s := Discipline.since_any
  exact Fallible.follows_bind any (fun a t _ => hk a t) fun _ _ _ h => of_isOk_error h

lemma settles_remove {record : FakeRecord} {reason : Removal}
    (h : record.On ref.resource ref.lease) :
    Settles ref (journalRemove record.leaseId record.resource reason) := by
  intro s
  refine ⟨trivial, fun answer _ hok => .inl ⟨h.lease, h.resource, ?_⟩⟩
  match answer with
  | .ok _ => rfl
  | .error error => exact of_isOk_error hok

lemma settles_finishRestore {record : FakeRecord} (h : record.On ref.resource ref.lease) :
    Settles ref (finishRestore record).run := by
  intro s
  refine Fallible.follows_bind (p := ask (journalRemove _ _ _)) (settles_remove h s)
    (fun _ t removed => ?_) fun _ _ _ h => of_isOk_error h
  exact ⟨trivial, fun _ _ _ => .inr ⟨removed rfl, trivial⟩⟩

variable (B : Backend FakeSnapshotData)

lemma settles_restoreApplied {record : FakeRecord} (h : record.On ref.resource ref.lease)
    (applied : FakeSnapshot) : Settles ref (restoreApplied B ref record applied).run := by
  refine settles_ignore fun _ => settles_ignore fun answer => ?_
  match answer with
  | (.error error, pending) => exact settles_ignore fun _ => settles_error error
  | (.ok _, pending) => exact settles_ignore fun _ => settles_finishRestore h

lemma settles_restoreOwned (current : FakeSnapshot) :
    Settles ref (restoreOwned B ref current).run := by
  have named : (liveGet ref).Yields Named fun live : FakeLive => live.On ref.resource ref.lease :=
    fun live hlive => hlive
  refine settles_value named fun live hlive => ?_
  cases live.applied with
  | none => exact settles_error _
  | some applied =>
      dsimp only
      split
      · exact settles_error _
      · exact settles_restoreApplied B hlive.record applied

lemma settles_restoreLiveState : Settles ref (restoreLiveState B ref).run := by
  have named : (liveGet ref).Yields Named fun live : FakeLive => live.On ref.resource ref.lease :=
    fun live hlive => hlive
  have unsettled : ∀ current : FakeSnapshot, Settles ref ((do
      resolveLive B ref (some current)
      let live ← value (liveGet ref)
      let current ← ask (readback .forward live.record.resource)
      if B.equivalent current live.record.before then finishRestore live.record
      else restoreOwned B ref current : EngineResult FakeSnapshotData FakeIdentity Unit)).run := by
    intro current
    refine settles_bind fun _ => settles_value named fun live hlive => settles_bind fun current => ?_
    split
    · exact settles_finishRestore hlive.record
    · exact settles_restoreOwned B current
  refine settles_value named fun live hlive => settles_bind fun status => ?_
  cases status with
  | gone => exact settles_remove hlive.record
  | replaced => exact settles_remove hlive.record
  | ambiguous => exact settles_error _
  | same =>
  refine settles_ignore fun answer => ?_
  cases answer with
  | error error =>
      cases error with
      | resourceGone => exact settles_remove hlive.record
      | _ => exact settles_error _
  | ok current =>
      refine settles_bind fun _ => ?_
      split
      · exact settles_finishRestore hlive.record
      · split
        · exact settles_restoreOwned B current
        · exact unsettled current

/-! ## Steps -/

/-- The discipline of `removal` for the calls of a manager. -/
abbrev managerRemoval (ref : LiveRef) :
    Discipline (ManagerRet FakeSnapshotData FakeIdentity) Prop :=
  .since ManagerNamed (ManagerOp.Removes ref) ManagerOp.IsFire

/-- A step for ending a lease: on each record it makes calls of the engine for the record's lease
and resource only, and it succeeds only after it removed the record. -/
structure TearsDown (step : LiveRef → FakeManaged (Except Error Unit)) : Prop where
  own : ∀ ref, (step ref).Only ManagerNamed fun o =>
    ∃ e, o = .engine e ∧ e.For ref.lease (· = ref.resource)
  settles : ∀ ref (s : Prop), (step ref).Follows (managerRemoval ref)
    (fun answer s => answer.isOk = true → s) s

lemma settles_engine {p : Engine FakeSnapshotData FakeIdentity (Except Error α)}
    (h : Settles ref p) (s : Prop) :
    (engine p).Follows (managerRemoval ref) (fun answer s => answer.isOk = true → s) s :=
  (h s).lift fun _ _ _ => ⟨trivial, fun _ hr => ⟨hr, rfl⟩⟩

lemma only_engine {L : LeaseId} {R : ResourceId → Prop}
    {p : Engine FakeSnapshotData FakeIdentity α} (h : EngineFor L R p) :
    (engine p).Only ManagerNamed fun o => ∃ e, o = .engine e ∧ e.For L R :=
  Program.Only.lift (fun e he => ⟨e, rfl, he⟩) (fun _ _ ha => ha) h

lemma tearsDown_restore : TearsDown fun ref => engine (restoreLiveState B ref).run where
  own _ := only_engine (engineFor_restoreLiveState B rfl)
  settles _ := settles_engine (settles_restoreLiveState B)

lemma tearsDown_abandon : TearsDown abandonRecord where
  own ref := by
    refine ⟨⟨_, rfl, .of_target rfl rfl (by simp) (by simp)⟩, fun live hlive => ?_⟩
    have hresource : live.record.resource = ref.resource := hlive.record.resource
    exact only_engine (engineFor_journalRemove _ _ hresource)
  settles ref s := ⟨trivial, fun live hlive => settles_engine (settles_remove hlive.record) _⟩

/-- A step that succeeded removed the record, and only passed checkpoints after that. -/
lemma TearsDown.removed {step : LiveRef → FakeManaged (Except Error Unit)} (h : TearsDown step)
    {es : List WorldExchange}
    (ht : (step ref).Transcript es (.done (.ok ()))) (hnamed : ∀ e ∈ es, ManagerNamed e.op e.answer) :
    ∃ first reason before after rest, es = first ++
        ⟨.engine (.journalRemove ref.lease ref.resource reason), .ok (), before, after⟩ :: rest ∧
      ∀ e ∈ rest, e.op.IsFire := by
  have hend := ht.follows (fun e he _ => hnamed e he) (h.settles ref False) rfl
  obtain ⟨first, e, rest, rfl, hremoves, hfires⟩ := Discipline.since_foldl hend
  obtain ⟨o, answer, before, after⟩ := e
  cases o with
  | engine o =>
      cases o with
      | journalRemove lease resource reason =>
          obtain ⟨rfl, rfl, rfl⟩ := hremoves
          exact ⟨first, reason, before, after, rest, rfl, hfires⟩
      | _ => exact hremoves.elim
  | _ => exact hremoves.elim

end Osdns
