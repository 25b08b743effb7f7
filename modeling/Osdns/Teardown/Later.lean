import Osdns.Teardown.Endings

/-!
# After a resource left its lease

Once a resource left the lease, no later operation on the handle has anything to do with it: the
handle does not name it any more, and an operation only calls on the resources its handle names.
Whoever holds the resource by then is not disturbed.
-/

namespace Osdns

open Interaction
open Interaction.Fallible (only_bind only_run_value only_value)

variable {r : ResourceId} {o : ManagerOp FakeSnapshotData FakeIdentity}

/-! ## Calls that spare a resource -/

/-- The call neither reads nor changes anything of the resource: if the resource's cell is replaced
by any other, the call gives the same answer and has the same effect elsewhere. -/
def World.Spares (r : ResourceId) (o : ManagerOp FakeSnapshotData FakeIdentity) : Prop :=
  ∀ (w : World) (c : Cell) (i : SessionId) (m : ManagerId) (fate : Fate),
    (w.setCell r c).exec i m fate o =
      (w.exec i m fate o).map fun result => (result.1, result.2.setCell r c)

/-- The call is not about the resource, and not about all resources. -/
def ManagerOp.Off (r : ResourceId) : ManagerOp FakeSnapshotData FakeIdentity → Prop
  | .engine .journalRecords => False
  | .rescanEnforce => False
  | o => o.target ≠ some r

lemma ManagerOp.Off.target (h : o.Off r) : o.target ≠ some r := by
  cases o with
  | engine o =>
      cases o with
      | journalRecords => exact h.elim
      | _ => exact h
  | rescanEnforce => exact h.elim
  | _ => exact h

lemma World.setCell_comm {w : World} {r' : ResourceId} {c d : Cell} (hr : r' ≠ r) :
    ((w.setCell r c).setCell r' d).account o = ((w.setCell r' d).account o).setCell r c := by
  have hcells : Function.update (Function.update w.cells r c) r' d =
      Function.update (Function.update w.cells r' d) r c := Function.update_comm hr.symm c d w.cells
  cases o with
  | engine o => cases o <;> simp only [World.setCell, World.account, hcells]
  | _ => simp only [World.setCell, World.account, hcells]

lemma ManagerOp.Off.spares (h : o.Off r) : World.Spares r o := by
  intro w c i m fate
  unfold World.exec
  cases ht : o.target with
  | some r' =>
      have hr : r' ≠ r := fun heq => h.target (heq ▸ ht)
      have hcell : (w.setCell r c).cells r' = w.cells r' := Function.update_of_ne hr _ _
      simp only [hcell, Option.map_map]
      change Option.map _ ((w.cells r').exec r' (w.context i m) fate o) = _
      congr 1
      funext result
      simp only [Function.comp_apply, World.setCell_comm hr]
  | none =>
      cases o with
      | engine o =>
          cases o with
          | fire | newLeaseId => cases fate <;> rfl
          | journalRecords => exact h.elim
          | _ => cases ht
      | resolveResources => cases fate <;> rfl
      | tokenLock token =>
          have htokens : (w.setCell r c).tokens m token = w.tokens m token := rfl
          cases hk : w.tokens m token <;> simp only [World.execGlobal, htokens, hk] <;> rfl
      | gateLock =>
          have hgate : (w.setCell r c).gate m = w.gate m := rfl
          cases hk : w.gate m <;> simp only [World.execGlobal, hgate, hk] <;> rfl
      | rescanEnforce => exact h.elim
      | enforceEnsure => cases fate <;> rfl
      | tokenUnlock | gateUnlock | sleep | enforceRelease => rfl
      | _ => cases ht

/-- A call for one record spares other resources. -/
lemma ManagerOp.Tears.off {ref : LiveRef} (h : o.Tears ref) (hr : ref.resource ≠ r) : o.Off r := by
  have htarget : o.target ≠ some r := by
    intro ht
    cases o with
    | engine o => exact hr (h.target r ht).symm
    | release | activeRemove | tokenGet | tokenRemove | reconcilerRemove | enterSection
    | leaveSection => exact hr (h.symm.trans (Option.some.inj ht))
    | tokenLock | tokenUnlock => cases ht
    | _ => exact h.elim
  cases o with
  | engine o =>
      cases o with
      | journalRecords => exact absurd rfl h.listing
      | _ => exact htarget
  | rescanEnforce => exact h.elim
  | _ => exact htarget

/-! ## Operations on a handle without the resource -/

/-- The handle of a lease that is being ended and does not name the resource any more. -/
structure Lease.Without (r : ResourceId) (lease : Lease) : Prop where
  inactive : lease.isActive = false
  live : ∀ state, lease.state = some state → r ∉ state.live.map (·.resource)
  locks : ∀ state, lease.state = some state → r ∉ state.locks

/-- The program has nothing to do with the resource, and answers in `φ`. -/
structure Confined {α : Type} (r : ResourceId) (φ : α → Prop) (p : FakeManaged α) : Prop where
  off : p.Only ManagerNamed (ManagerOp.Off r)
  yields : p.Yields ManagerNamed φ

section Operations

variable {M : FakeManager} {lease : Lease} {state : LiveLease} {α β : Type}
variable {step : LiveRef → FakeManaged (Except Error Unit)} {refs : List LiveRef}
variable {locks : List ResourceId}

lemma Confined.bind {φ : α → Prop} {ψ : β → Prop} {p : FakeManaged α} {f : α → FakeManaged β}
    (hp : Confined r φ p) (hf : ∀ a, φ a → Confined r ψ (f a)) : Confined r ψ (p.bind f) :=
  ⟨hp.off.seq hp.yields fun a ha => (hf a ha).off, hp.yields.bind fun a ha => (hf a ha).yields⟩

lemma Confined.done {φ : α → Prop} {a : α} (h : φ a) : Confined r φ (.done a) := ⟨trivial, h⟩

lemma Confined.of_only {p : FakeManaged α} (h : p.Only ManagerNamed (ManagerOp.Off r)) :
    Confined r (fun _ => True) p := ⟨h, Program.Yields.any⟩

/-- A teardown keeps records and locks that were there. -/
lemma yields_teardown_subset {A : (o : ManagerOp FakeSnapshotData FakeIdentity) →
    ManagerRet FakeSnapshotData FakeIdentity o → Prop} :
    (teardown step refs locks).Yields A fun left =>
      (∀ ref ∈ left.live, ref ∈ refs) ∧ ∀ r ∈ left.locks, r ∈ locks := by
  induction refs generalizing locks with
  | nil => exact ⟨fun _ h => h, fun _ h => h⟩
  | cons ref refs ih =>
      refine Program.Yields.after fun outcome => ?_
      match outcome with
      | .ok _ =>
          refine ih.mono (fun _ _ h => h) fun left h => ?_
          exact ⟨fun x hx => List.mem_cons_of_mem _ (h.1 x hx),
            fun r hr => (List.mem_filter.mp (h.2 r hr)).1⟩
      | .error error =>
          refine ih.bind fun left h => ⟨fun x hx => ?_, h.2⟩
          exact List.mem_cons.mpr ((List.mem_cons.mp hx).imp_right (h.1 x))

/-- A teardown of other records. -/
lemma confined_teardown (hstep : TearsDown step) (hlive : r ∉ refs.map (·.resource))
    (hlocks : r ∉ locks) : Confined r (fun left : Teardown =>
      r ∉ left.live.map (·.resource) ∧ r ∉ left.locks) (teardown step refs locks) := by
  have hne : ∀ ref ∈ refs, ref.resource ≠ r := fun ref hmem heq =>
    hlive (heq ▸ List.mem_map_of_mem hmem)
  refine ⟨(only_teardown hstep).mono fun o ho => ?_,
    yields_teardown_subset.mono (fun _ _ h => h) fun left h => ⟨fun hr => ?_, fun hr => ?_⟩⟩
  · obtain ⟨ref, hmem, htears⟩ := ho
    exact htears.off (hne ref hmem)
  · obtain ⟨ref, hmem, rfl⟩ := List.mem_map.mp hr
    exact hne ref (h.1 ref hmem) rfl
  · exact hlocks (h.2 r hr)

lemma confined_releaseAll (hlocks : r ∉ locks) :
    Confined r (fun _ => True) (releaseAll locks : FakeManaged Unit) := by
  refine .of_only (only_releases fun r' hr' heq => hlocks ?_)
  obtain rfl := Option.some.inj heq
  exact hr'

lemma confined_releaseEnforceWatch :
    Confined r (fun _ => True) (releaseEnforceWatch M : FakeManaged Unit) := by
  unfold releaseEnforceWatch
  split
  · exact .done trivial
  · exact ⟨⟨by simp [ManagerOp.Off, ManagerOp.target], fun _ _ => trivial⟩, fun _ _ => trivial⟩

/-- The end of a teardown of other records. -/
lemma confined_end {phase : LeasePhase} (hphase : phase ≠ .active) {left : Teardown}
    (hlive : r ∉ left.live.map (·.resource)) (hlocks : r ∉ left.locks) :
    Confined r (fun answer => answer.2.Without r) (do
      if state.phase = .active then releaseEnforceWatch M
      match left.error with
      | none =>
          releaseAll left.locks
          return (.ok (), { lease with state := none })
      | some error => return (.error error,
          { lease with state := some ⟨left.live, left.locks, phase⟩ }) :
        FakeManaged (Except Error Unit × Lease)) := by
  have hfinish : Confined r (fun answer => answer.2.Without r) (match left.error with
      | none => do
          releaseAll left.locks
          return (.ok (), { lease with state := none })
      | some error => return (.error error,
          { lease with state := some ⟨left.live, left.locks, phase⟩ }) :
        FakeManaged (Except Error Unit × Lease)) := by
    split
    · refine (confined_releaseAll hlocks).bind fun _ _ => .done ?_
      exact ⟨rfl, fun _ h => absurd h (by simp), fun _ h => absurd h (by simp)⟩
    · refine .done ⟨by simp [Lease.isActive, hphase], fun _ h => ?_, fun _ h => ?_⟩
      · obtain rfl := Option.some.inj h
        exact hlive
      · obtain rfl := Option.some.inj h
        exact hlocks
  dsimp only
  split
  · exact confined_releaseEnforceWatch.bind fun _ _ => hfinish
  · exact hfinish

lemma confined_restoreState (h : lease.Without r) :
    Confined r (fun answer => answer.2.Without r) (lease.restoreState M : FakeManaged _) := by
  unfold Lease.restoreState
  cases hstate : lease.state with
  | none => exact .done h
  | some state =>
      refine (confined_teardown (tearsDown_restore M.backend) (h.live state hstate)
        (h.locks state hstate)).bind fun left hleft => ?_
      exact confined_end (by simp) hleft.1 hleft.2

lemma confined_abandonState (h : lease.Without r) :
    Confined r (fun answer => answer.2.Without r) (lease.abandonState M : FakeManaged _) := by
  unfold Lease.abandonState
  cases hstate : lease.state with
  | none => exact .done h
  | some state =>
      refine (confined_teardown tearsDown_abandon (h.live state hstate)
        (h.locks state hstate)).bind fun left hleft => ?_
      exact confined_end (by simp) hleft.1 hleft.2

lemma only_dropRecords (phase : LeasePhase) :
    (dropRecords M phase refs : FakeManaged Unit).Only ManagerNamed fun o =>
      ∃ ref ∈ refs, o.Tears ref := by
  induction refs with
  | nil => trivial
  | cons ref refs ih =>
      refine Program.Only.bind (p := withLiveRecord ref _) ?_ fun _ =>
          ih.mono fun o ⟨x, hx, ho⟩ => ⟨x, List.mem_cons_of_mem _ hx, ho⟩
      refine Program.Only.mono (fun o ho => ⟨ref, List.mem_cons_self .., ho⟩)
        (only_withLiveRecord ?_)
      dsimp only
      split
      · exact tearsDown_abandon.only.bind fun _ => only_unregisterActive
      · exact (tearsDown_restore M.backend).only.bind fun _ => only_unregisterActive

lemma confined_drop (h : lease.Without r) :
    Confined r (fun _ => True) (lease.drop M : FakeManaged Unit) := by
  unfold Lease.drop
  cases hstate : lease.state with
  | none => exact .done trivial
  | some state =>
      have hlive := h.live state hstate
      refine Confined.bind (φ := fun _ => True) (.of_only ?_) fun _ _ => ?_
      · refine (only_dropRecords state.phase).mono fun o ho => ?_
        obtain ⟨ref, hmem, htears⟩ := ho
        exact htears.off fun heq => hlive (heq ▸ List.mem_map_of_mem hmem)
      refine (confined_releaseAll (h.locks state hstate)).bind fun _ _ => ?_
      split
      · exact confined_releaseEnforceWatch
      · exact .done trivial

lemma only_allRegistered (hlive : r ∉ refs.map (·.resource)) :
    (allRegistered refs : FakeManaged Bool).Only ManagerNamed (ManagerOp.Off r) := by
  induction refs with
  | nil => trivial
  | cons ref refs ih =>
      rw [List.map_cons, List.mem_cons, not_or] at hlive
      refine ⟨fun heq => hlive.1 (Option.some.inj heq).symm, fun answer _ => ?_⟩
      match answer with
      | some _ => exact ih hlive.2
      | none => trivial

/-- An update of a lease that is being ended fails before it does anything. -/
lemma only_update (h : lease.Without r) (config : DnsConfig) :
    (lease.update M config : ManagedResult _ _ Unit).run.Only ManagerNamed (ManagerOp.Off r) := by
  refine only_bind trivial fun plan => only_bind trivial fun _ => ?_
  cases hstate : lease.state with
  | none => trivial
  | some state =>
      have hphase : state.phase ≠ .active := by
        have := h.inactive
        simpa [Lease.isActive, hstate] using this
      refine only_value (only_allRegistered (h.live state hstate)) fun registered => ?_
      simp only [hphase, ne_eq, not_false_eq_true, true_or, if_true]
      trivial

/-- What a request that ends the lease hands back. -/
lemma confined_ended {p : FakeManaged (Except Error Unit × Lease)}
    (hp : Confined r (fun answer => answer.2.Without r) p) :
    Confined r (fun outcome : Outcome => ∀ lease, outcome.handle = some lease → lease.Without r)
      ((do
        match ← p with
        | (.ok _, _) => return .ok ()
        | (.error error, lease) => return .error (error, lease) :
          FakeManaged (Except (Error × Lease) Unit)).bind fun result => .done (.ended result)) := by
  refine Confined.bind (φ := fun result => ∀ error lease, result = .error (error, lease) →
    lease.Without r) (hp.bind fun answer h => ?_) fun result h => .done fun lease hl => ?_
  · match answer with
    | (.ok _, _) => exact .done fun _ _ h => absurd h (by simp)
    | (.error error, lease) =>
        refine .done fun error' lease' heq => ?_
        obtain ⟨-, rfl⟩ := Prod.mk.inj (Except.error.inj heq)
        exact h
  · match result with
    | .ok _ => exact absurd hl (by simp [Outcome.handle])
    | .error (error, lease') =>
        obtain rfl := Option.some.inj hl
        exact h error lease' rfl

/-- Every operation on the handle. -/
lemma confined_onLease (h : lease.Without r) (request : Request) :
    Confined r (fun outcome : Outcome => ∀ lease, outcome.handle = some lease → lease.Without r)
      (request.onLease M lease) := by
  have hnone : ∀ outcome : Outcome, outcome.handle = none →
      ∀ lease, outcome.handle = some lease → lease.Without r :=
    fun outcome hn lease hl => absurd (hn.symm.trans hl) (by simp)
  cases request with
  | update _ config =>
      refine (Confined.of_only (only_update h config)).bind fun result _ => .done fun l hl => ?_
      obtain rfl := Option.some.inj hl
      exact h
  | restore _ => exact confined_ended (confined_restoreState h)
  | abandon _ => exact confined_ended (confined_abandonState h)
  | drop _ => exact (confined_drop h).bind fun _ _ => .done (hnone _ rfl)
  | apply | reconcile | recoverStale | abandonJournal => exact .done (hnone _ rfl)

end Operations

/-! ## Runs -/

namespace System

variable {S : Setup} {s t : System} {id : LeaseId}

/-- Nobody who works for the lease has anything to do with the resource. -/
structure Apart (id : LeaseId) (r : ResourceId) (s : System) : Prop where
  started : id < s.next
  idle : ∀ m lease, s.leases id = some (m, lease) → lease.Without r
  sessions : ∀ i session, s.sessions i = some session → session.key i = id →
    Confined r (fun outcome : Outcome => ∀ lease, outcome.handle = some lease → lease.Without r)
      session.program

lemma Apart.step (h : s.Apart id r) (hs : Reachable S s) (hst : Step S s t) : t.Apart id r := by
  have keyed := Keyed.reachable hs
  cases hst with
  | start m request claims alone enforced free =>
      refine ⟨Nat.lt_succ_of_lt h.started, h.idle, fun i a hi hkey => ?_⟩
      obtain ⟨rfl, ha⟩ | ⟨-, hold⟩ := update_eq_some hi
      · obtain rfl := Option.some.inj ha
        exact absurd hkey h.started.ne'
      · exact h.sessions i a hold hkey
  | startOn m request lease K onLease idle free =>
      have hlease : lease.leaseId = K := (keyed.idle K (m, lease) idle).2.leaseId
      refine ⟨Nat.lt_succ_of_lt h.started, fun m' lease' hid => ?_, fun i a hi hkey => ?_⟩
      · exact h.idle m' lease' ((update_eq_some hid).resolve_left fun hn => by simp at hn).2
      · obtain ⟨rfl, ha⟩ | ⟨-, hold⟩ := update_eq_some hi
        · obtain rfl := Option.some.inj ha
          obtain rfl : K = id := hlease.symm.trans hkey
          exact confined_onLease (h.idle m lease idle) request
        · exact h.sessions i a hold hkey
  | call i a o k answer w running program claimed answered =>
      refine ⟨h.started, h.idle, fun j b hj hkey => ?_⟩
      obtain ⟨rfl, hb⟩ | ⟨-, hold⟩ := update_eq_some hj
      · obtain rfl := Option.some.inj hb
        have confined := h.sessions j a running hkey
        rw [program] at confined
        have named := managerNamed_of_reachable hs answered
        exact ⟨confined.off.2 answer named, confined.yields answer named⟩
      · exact h.sessions j b hold hkey
  | finish i a outcome running program =>
      refine ⟨h.started, fun m lease hid => ?_, fun j b hj hkey => ?_⟩
      · unfold System.finish at hid
        cases ho : outcome.handle with
        | none =>
            rw [ho] at hid
            exact h.idle m lease hid
        | some handed =>
            simp only [ho] at hid
            obtain ⟨heq, hlease⟩ | ⟨-, hold⟩ := update_eq_some hid
            · obtain ⟨-, rfl⟩ := Prod.mk.inj (Option.some.inj hlease)
              have hands := keyed.hands i a running
              rw [program] at hands
              have hkey : a.key i = id := (hands handed ho).leaseId.symm.trans heq.symm
              have confined := h.sessions i a running hkey
              rw [program] at confined
              exact confined.yields handed ho
            · exact h.idle m lease hold
      · exact h.sessions j b ((update_eq_some hj).resolve_left fun hn => by simp at hn).2 hkey
  | environment w henv => exact ⟨h.started, h.idle, h.sessions⟩
  | crash m =>
      refine ⟨h.started, fun m' lease hid => ?_, fun i a hi hkey => ?_⟩
      · exact h.idle m' lease (Option.filter_eq_some_iff.mp hid).1
      · exact h.sessions i a (Option.filter_eq_some_iff.mp hi).1 hkey

/-- It stays so for the rest of the run. -/
lemma Apart.steps (h : s.Apart id r) (hs : Reachable S s) (hst : Relation.ReflTransGen (Step S) s t) :
    t.Apart id r ∧ Reachable S t := by
  induction hst with
  | refl => exact ⟨h, hs⟩
  | tail _ hst ih => exact ⟨ih.1.step ih.2 hst, .step ih.2 hst⟩

/-- No session that works for the lease makes a call that touches the resource. -/
lemma Apart.spares (h : s.Apart id r) {i : SessionId} {session : Session}
    {o : ManagerOp FakeSnapshotData FakeIdentity}
    {k : ManagerRet FakeSnapshotData FakeIdentity o → FakeManaged Outcome}
    (running : s.sessions i = some session) (hkey : session.key i = id)
    (program : session.program = .call o k) : World.Spares r o := by
  have confined := h.sessions i session running hkey
  rw [program] at confined
  exact confined.off.1.spares

end System

end Osdns
