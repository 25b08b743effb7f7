import Osdns.Faultless.Restore
import Osdns.Quiet.Calls
import Osdns.System.Execution
import Osdns.System.Tokens

/-!
# Restoring a lease without faults

`Lease::restore` in the world: the programs of `Faultless/Restore.lean` run under the tokens of
their resources, one record after the other.  What a restore does on one resource leaves the
others alone, so a record that can be restored is, whatever becomes of the other records of its
lease.
-/

namespace Osdns

open Interaction
open Interaction.Fallible (ask value attempt)

variable {r : ResourceId} {L : LeaseId} {c d e : Cell} {caps : Capabilities} {α β : Type}
variable {i : SessionId} {m : ManagerId} {w w' u v : World}

/-- A manager program stops in the world, by itself and without faults. -/
abbrev WorldStops (i : SessionId) (m : ManagerId) (p : FakeManaged α) (Q : α → World → Prop)
    (w : World) : Prop :=
  p.Stops (World.handler noFaults i m) Q w

/-! ## Calls besides -/

/-- Two worlds with the same native states, journals and live records. -/
def World.Alike (w w' : World) : Prop := ∀ r, Osdns.Alike (w.cells r) (w'.cells r)

lemma World.Alike.refl (w : World) : w.Alike w := fun r => .refl (w.cells r)

lemma World.Alike.trans (h₁ : u.Alike v) (h₂ : v.Alike w) : u.Alike w := fun r =>
  (h₁ r).trans (h₂ r)

/-- The calls of a teardown besides its steps: bookkeeping of the manager. -/
def ManagerOp.isAside {D I : Type} : ManagerOp D I → Bool
  | .release _ => true
  | .activeRemove _ => true
  | .tokenGet _ => true
  | .tokenRemove _ => true
  | .enterSection _ => true
  | .leaveSection _ => true
  | .reconcilerRemove _ => true
  | .enforceRelease => true
  | _ => false

section Aside

variable {o : ManagerOp FakeSnapshotData FakeIdentity}

lemma Cell.exec_aside {ctx : Context} (ho : o.isAside = true) (ht : o.target = some r) :
    ∃ answer d, c.exec r ctx .proceed o = some (answer, d) ∧ Alike c d := by
  have halike : ∀ lock active token pending breaker sections,
      Alike c { c with lock, active, token, pending, breaker, sections } :=
    fun _ _ _ _ _ _ => ⟨⟨rfl, rfl, rfl, rfl, rfl, rfl, rfl, rfl, rfl⟩, rfl, rfl⟩
  cases o with
  | tokenGet resource =>
      cases hk : c.token ctx.manager with
      | some token => exact ⟨token, c, by simp only [Cell.exec, hk], .refl c⟩
      | none => exact ⟨ctx.nextToken, _, by simp only [Cell.exec, hk]; rfl, halike _ _ _ _ _ _⟩
  | release | activeRemove | tokenRemove | enterSection | leaveSection | reconcilerRemove =>
      exact ⟨(), _, rfl, halike _ _ _ _ _ _⟩
  | enforceRelease => cases ht
  | _ => exact absurd ho (by simp [ManagerOp.isAside])

lemma World.account_cells : (w.account o).cells = w.cells := by
  unfold World.account
  split <;> rfl

/-- Bookkeeping always goes through, and leaves the world alike with the tokens held as before. -/
lemma stops_aside {k : ManagerRet FakeSnapshotData FakeIdentity o → FakeManaged α}
    {Q : α → World → Prop} (ho : o.isAside = true)
    (hk : ∀ answer u, w.Alike u → u.tokens = w.tokens → WorldStops i m (k answer) Q u) :
    WorldStops i m (.call o k) Q w := by
  have hexec : ∃ answer u, w.exec i m .proceed o = some (answer, u) ∧ w.Alike u := by
    cases ht : o.target with
    | some r =>
        obtain ⟨answer, d, hx, hd⟩ : ∃ answer d,
            (w.cells r).exec r (w.context i m) .proceed o = some (answer, d) ∧
              Osdns.Alike (w.cells r) d := Cell.exec_aside ho ht
        refine ⟨answer, (w.setCell r d).account o, by simp only [World.exec, ht, hx, Option.map_some],
          fun r' => ?_⟩
        rw [World.account_cells]
        by_cases hr : r' = r
        · subst hr
          rwa [World.setCell_cells_self]
        · rw [World.setCell_cells_of_ne hr]
          exact .refl _
    | none =>
        cases o with
        | enforceRelease => exact ⟨_, _, rfl, fun _ => .refl _⟩
        | release | activeRemove | tokenGet | tokenRemove | enterSection | leaveSection |
            reconcilerRemove => cases ht
        | _ => exact absurd ho (by simp [ManagerOp.isAside])
  obtain ⟨answer, u, hx, hu⟩ := hexec
  have hanswered : World.handler noFaults i m o w answer u := ⟨.proceed, .inl rfl, hx⟩
  refine .step hanswered (fun answer' u' h => ?_) (hk answer u hu ?_)
  · obtain ⟨fate, hfate, hx'⟩ := h
    obtain rfl := hfate.resolve_right id
    obtain ⟨rfl, rfl⟩ := Prod.mk.inj (Option.some.inj (hx'.symm.trans hx))
    exact ⟨rfl, rfl⟩
  · refine World.handler_tokens hanswered ?_
    cases o with
    | tokenLock | tokenUnlock => exact absurd ho (by simp [ManagerOp.isAside])
    | _ => rfl

end Aside

/-! ## Programs of the engine -/

/-- Nothing but the cell of `r` is different. -/
structure World.Besides (r : ResourceId) (w w' : World) : Prop where
  cells : ∀ r', r' ≠ r → w'.cells r' = w.cells r'
  tokens : w'.tokens = w.tokens
  clock : w'.clock = w.clock
  nextToken : w'.nextToken = w.nextToken

/-- A call of the engine on `r` leaves everything else alone. -/
lemma World.besides_exec {o : EngineOp FakeSnapshotData FakeIdentity}
    (ht : o.target = some r) : World.Besides r w ((w.setCell r c).account (.engine o)) := by
  have hcells := World.account_cells (w := w.setCell r c) (o := .engine o)
  refine ⟨fun r' hr => ?_, (World.account_tokens _ _).trans rfl, ?_, ?_⟩
  · rw [hcells, World.setCell_cells_of_ne hr]
  · cases o <;> rfl
  · cases o <;> rfl

/-- A program of the engine runs in the world as on the cell of its resource. -/
lemma stops_engine {p : Engine FakeSnapshotData FakeIdentity α} {Q : α → Cell → Prop}
    (h : EngineStops (w.context i m) r p Q (w.cells r)) :
    WorldStops i m (engine p) (fun a w' => Q a (w'.cells r) ∧ w.Besides r w') w := by
  have hengine : p.Stops (fun o => World.handler noFaults i m (.engine o))
      (fun a w' => Q a (w'.cells r) ∧ w.Besides r w') w := by
    refine .simulate (f := fun u => u.cells r) (I := w.Besides r) (fun o u hu => ?_)
      (fun o u answer v hu hanswer hv => ?_) ⟨fun _ _ => rfl, rfl, rfl, rfl⟩ h
    all_goals
      have hctx : u.context i m = w.context i m := by
        simp only [World.context, hu.clock, hu.nextToken]
    · rintro ⟨answer, d, fate, hfate, ⟨ht, hx⟩ | ⟨ht, rfl, hx⟩⟩
      · obtain rfl := hfate.resolve_right id
        refine ⟨answer, (u.setCell r d).account (.engine o), .proceed, .inl rfl, ?_⟩
        simp only [World.exec, ht, hctx, hx, Option.map_some]
      · obtain rfl := hfate.resolve_right id
        refine ⟨answer, u, .proceed, .inl rfl, ?_⟩
        simp only [World.exec, ht]
        exact hx u
    · obtain ⟨answer', d, fate, hfate, ⟨ht, hx⟩ | ⟨ht, rfl, hx⟩⟩ := hanswer
      · obtain rfl := hfate.resolve_right id
        obtain ⟨fate, hfate, hv⟩ := hv
        obtain rfl := hfate.resolve_right id
        simp only [World.exec, ht, hctx, hx, Option.map_some, Option.some.injEq,
          Prod.mk.injEq] at hv
        obtain ⟨rfl, rfl⟩ := hv
        have hd : ((u.setCell r d).account (.engine o)).cells r = d := by
          rw [World.account_cells, World.setCell_cells_self]
        have hb := World.besides_exec (w := u) (c := d) ht
        exact ⟨⟨.proceed, .inl rfl, .inl ⟨ht, by rw [hd]; exact hx⟩⟩,
          fun r' hr => (hb.cells r' hr).trans (hu.cells r' hr), hb.tokens.trans hu.tokens,
          hb.clock.trans hu.clock, hb.nextToken.trans hu.nextToken⟩
      · obtain rfl := hfate.resolve_right id
        obtain ⟨fate, hfate, hv⟩ := hv
        obtain rfl := hfate.resolve_right id
        simp only [World.exec, ht] at hv
        obtain ⟨rfl, rfl⟩ := Prod.mk.inj (Option.some.inj (hv.symm.trans (hx u)))
        exact ⟨⟨.proceed, .inl rfl, .inr ⟨ht, rfl, hx⟩⟩, hu⟩
  exact hengine.lift (fun _ _ h => h) fun _ _ _ _ h => h

/-! ## Under the token of a resource -/

/-- A token that was free is free again after it was locked and unlocked. -/
lemma World.tokens_unlocked {token : Token} (hfree : w.tokens m token = none)
    (hv : v.tokens = (w.setToken m token (some i)).tokens) :
    (v.setToken m token none).tokens = w.tokens := by
  funext m' token'
  simp only [World.setToken, hv]
  by_cases hm : m' = m
  · subst hm
    by_cases ht : token' = token
    · subst ht
      simp [hfree]
    · simp [ht]
  · simp [hm]

/-- `with_live_record` while the tokens of the manager are free. -/
lemma stops_withLiveRecord {ref : LiveRef} {f : FakeManaged α} {M : α → World → Prop}
    (hfree : ∀ token, w.tokens m token = none) (hM : ∀ a u v, M a u → u.Alike v → M a v)
    (hf : ∀ u, w.Alike u → WorldStops i m f (fun a v => M a v ∧ v.tokens = u.tokens) u) :
    WorldStops i m (withLiveRecord ref f) (fun a v => M a v ∧ v.tokens = w.tokens) w := by
  refine stops_aside rfl fun token u hu htokens => ?_
  have hnone : u.tokens m token = none := by rw [htokens, hfree]
  have hlock : u.exec i m .proceed (.tokenLock token) =
      some ((), u.setToken m token (some i)) := by
    simp only [World.exec, ManagerOp.target, World.execGlobal, hnone]
  refine .step ⟨.proceed, .inl rfl, hlock⟩ (fun answer u' h => ?_) ?_
  · obtain ⟨fate, hfate, hx⟩ := h
    obtain rfl := hfate.resolve_right id
    obtain ⟨rfl, rfl⟩ := Prod.mk.inj (Option.some.inj (hx.symm.trans hlock))
    exact ⟨rfl, rfl⟩
  have hlocked : w.Alike (u.setToken m token (some i)) := hu
  refine stops_aside rfl fun _ v hv htokens' => ?_
  change WorldStops i m (f.bind _) _ v
  refine Program.Stops.bind (hf v (hlocked.trans hv)) fun a x hx => ?_
  refine stops_aside rfl fun _ y hy htokens'' => ?_
  have hunlock : y.exec i m .proceed (.tokenUnlock token) = some ((), y.setToken m token none) := rfl
  refine .step ⟨.proceed, .inl rfl, hunlock⟩ (fun answer u' h => ?_) ⟨hM a x _ hx.1 hy, ?_⟩
  · obtain ⟨fate, hfate, hx⟩ := h
    obtain rfl := hfate.resolve_right id
    obtain ⟨rfl, rfl⟩ := Prod.mk.inj (Option.some.inj (hx.symm.trans hunlock))
    exact ⟨rfl, rfl⟩
  · exact (World.tokens_unlocked hnone (htokens''.trans (hx.2.trans htokens'))).trans htokens

lemma stops_releaseAll (locks : List ResourceId) :
    WorldStops i m (releaseAll locks) (fun _ u => w.Alike u ∧ u.tokens = w.tokens) w := by
  induction locks generalizing w with
  | nil => exact ⟨.refl w, rfl⟩
  | cons lock locks ih =>
      refine stops_aside rfl fun _ u hu htokens => ih.mono fun _ v hv => ?_
      exact ⟨hu.trans hv.1, hv.2.trans htokens⟩

/-! ## One record -/

/-- The lease made the latest native write, and the resource is the one it leased. -/
structure Restorable (L : LeaseId) (c : Cell) : Prop where
  ours : c.writer = .engine L
  same : ∃ live, c.live L = some live ∧ c.resourceStatus live.record.identity = .ok .same

/-- The native state is back at the `before` that the live record had in `c`, and the journal has
no record of the lease. -/
def RestoredFrom (L : LeaseId) (c d : Cell) : Prop :=
  ∃ live, c.live L = some live ∧ d.state = some live.record.before.data.state ∧ d.record L = none

/-- The live record of the lease is in order. -/
def InOrder (r : ResourceId) (L : LeaseId) (c : Cell) : Prop := ∃ live, Holding r L c live c

lemma Alike.restorable (h : Alike c d) (hc : Restorable L c) : Restorable L d := by
  obtain ⟨live, hlive, hs⟩ := hc.same
  exact ⟨h.writer.trans hc.ours, live, (congrFun h.live L).trans hlive, (h.status _).trans hs⟩

lemma Alike.restoredFrom (h : Alike c d) (hc : RestoredFrom L d e) : RestoredFrom L c e := by
  obtain ⟨live, hlive, hback⟩ := hc
  exact ⟨live, (congrFun h.live L).symm.trans hlive, hback⟩

lemma RestoredFrom.alike (hc : RestoredFrom L c d) (h : Alike d e) : RestoredFrom L c e := by
  obtain ⟨live, hlive, hstate, hrecord⟩ := hc
  refine ⟨live, hlive, h.state.trans hstate, ?_⟩
  rw [Cell.record, h.journal]
  exact hrecord

lemma Alike.inOrder (h : Alike c d) (hc : InOrder r L c) : InOrder r L d := by
  obtain ⟨live, hc⟩ := hc
  exact ⟨live, hc.inv.drift h.drift, (congrFun h.live L).trans hc.live_eq, hc.ok.drift h.drift, .refl d⟩

/-- What restoring one record does: it leaves the other resources alone, and succeeds when the
record can be restored. -/
structure RestoredOne (r : ResourceId) (L : LeaseId) (w : World) (answer : Except Error Unit)
    (v : World) : Prop where
  others : ∀ r', r' ≠ r → Alike (w.cells r') (v.cells r')
  restored : Restorable L (w.cells r) →
    answer = .ok () ∧ RestoredFrom L (w.cells r) (v.cells r)

lemma RestoredOne.alike {answer : Except Error Unit} (h : RestoredOne r L w answer u)
    (hv : u.Alike v) : RestoredOne r L w answer v :=
  ⟨fun r' hr => (h.others r' hr).trans (hv r'), fun hc =>
    ⟨(h.restored hc).1, (h.restored hc).2.alike (hv r)⟩⟩

/-- `restore_live_state` in the world. -/
lemma stops_restoreStep (h : InOrder r L (w.cells r)) :
    WorldStops i m (engine (restoreLiveState (fakeBackend caps) ⟨L, r⟩).run)
      (fun answer v => RestoredOne r L w answer v ∧ v.tokens = w.tokens) w := by
  obtain ⟨live, hh⟩ := h
  refine (stops_engine (r := r) (Q := fun answer d => Restorable L (w.cells r) →
    answer = .ok () ∧ RestoredFrom L (w.cells r) d) ?_).mono fun answer v hv => ?_
  swap
  · obtain ⟨hv, hbesides⟩ := hv
    exact ⟨⟨fun r' hr => by rw [hbesides.cells r' hr]; exact .refl _, hv⟩, hbesides.tokens⟩
  by_cases hc : Restorable L (w.cells r)
  · obtain ⟨live', hlive', hs⟩ := hc.same
    obtain rfl := Option.some.inj (hh.live_eq.symm.trans hlive')
    obtain ⟨p, hp⟩ := hh.ok.explained hh.live_eq hc.ours hs
    exact (stops_restoreLiveState hp).mono fun answer d hd _ =>
      ⟨hd.answer, live, hh.live_eq, hd.state, hd.record⟩
  · exact (stops_restoreAny hh).mono fun _ _ _ hc' => absurd hc' hc

lemma stops_teardownRecord {locks : List ResourceId} (hfree : ∀ token, w.tokens m token = none)
    (h : InOrder r L (w.cells r)) :
    WorldStops i m (teardownRecord (fun ref => engine (restoreLiveState (fakeBackend caps) ref).run)
      ⟨L, r⟩ locks) (fun answer v => RestoredOne r L w answer v ∧ v.tokens = w.tokens) w := by
  refine stops_withLiveRecord hfree (fun _ _ _ hu hv => hu.alike hv) fun u hu => ?_
  refine stops_aside rfl fun _ x hx hxt => stops_aside rfl fun _ y hy hyt =>
    stops_aside rfl fun _ z hz hzt => ?_
  have hwz : w.Alike z := hu.trans (hx.trans (hy.trans hz))
  have htokens : z.tokens = u.tokens := hzt.trans (hyt.trans hxt)
  have hback : ∀ {answer : Except Error Unit} {v : World}, RestoredOne r L z answer v →
      RestoredOne r L w answer v := fun hv =>
    ⟨fun r' hr => (hwz r').trans (hv.others r' hr), fun hc =>
      ⟨(hv.restored ((hwz r).restorable hc)).1,
        (hwz r).restoredFrom (hv.restored ((hwz r).restorable hc)).2⟩⟩
  change WorldStops i m (Program.bind (engine _) _) _ z
  refine Program.Stops.bind (stops_restoreStep ((hwz r).inOrder h)) fun answer v hv => ?_
  match answer with
  | .ok _ =>
      refine (stops_releaseAll _).bind fun _ x hx => ?_
      exact ⟨(hback hv.1).alike hx.1, hx.2.trans (hv.2.trans htokens)⟩
  | .error error => exact ⟨hback hv.1, hv.2.trans htokens⟩

/-! ## All the records of a lease -/

/-- What the teardown of `refs` does: it leaves the other resources alone, and lets go of every
record that can be restored. -/
structure TornDown (L : LeaseId) (refs : List LiveRef) (w : World) (result : Teardown) (v : World) :
    Prop where
  others : ∀ r, r ∉ refs.map (·.resource) → Alike (w.cells r) (v.cells r)
  restored : ∀ r ∈ refs.map (·.resource), Restorable L (w.cells r) →
    RestoredFrom L (w.cells r) (v.cells r) ∧ r ∉ result.live.map (·.resource)
  sublist : result.live.Sublist refs
  all : (∀ r ∈ refs.map (·.resource), Restorable L (w.cells r)) → result.error = none

lemma stops_teardown {refs : List LiveRef} {locks : List ResourceId}
    (hlease : ∀ ref ∈ refs, ref.lease = L) (hnodup : (refs.map (·.resource)).Nodup)
    (hfree : ∀ token, w.tokens m token = none)
    (h : ∀ r ∈ refs.map (·.resource), InOrder r L (w.cells r)) :
    WorldStops i m (teardown (fun ref => engine (restoreLiveState (fakeBackend caps) ref).run)
      refs locks) (fun result v => TornDown L refs w result v ∧ v.tokens = w.tokens) w := by
  induction refs generalizing w locks with
  | nil =>
      exact ⟨⟨fun r _ => .refl _, fun r hr => absurd hr (by simp), .slnil, fun _ => rfl⟩, rfl⟩
  | cons ref refs ih =>
      obtain ⟨hnot, hdistinct⟩ := List.nodup_cons.mp hnodup
      obtain ⟨lease, r⟩ := ref
      obtain rfl : lease = L := hlease _ List.mem_cons_self
      have hr : InOrder r lease (w.cells r) := h r List.mem_cons_self
      refine (stops_teardownRecord hfree hr).bind fun answer u hu => ?_
      obtain ⟨hone, htokens⟩ := hu
      -- The rest of the teardown finds the other resources as they were.
      have hrest : ∀ locks, WorldStops i m (teardown
          (fun ref => engine (restoreLiveState (fakeBackend caps) ref).run) refs locks)
          (fun result v => TornDown lease refs u result v ∧ v.tokens = u.tokens) u := fun locks =>
        ih (fun ref href => hlease ref (List.mem_cons_of_mem _ href)) hdistinct
          (fun token => by rw [htokens, hfree]) fun r' hr' =>
            (hone.others r' fun heq => hnot (heq ▸ hr')).inOrder (h r' (List.mem_cons_of_mem _ hr'))
      have hsame : ∀ r' ∈ refs.map (·.resource), Alike (w.cells r') (u.cells r') := fun r' hr' =>
        hone.others r' fun heq => hnot (heq ▸ hr')
      have hjoin : ∀ {result : Teardown} {v : World} {live : List LiveRef} {error : Option Error},
          TornDown lease refs u result v → live.Sublist (⟨lease, r⟩ :: refs) →
          (Restorable lease (w.cells r) → live = result.live ∧ error = result.error) →
          (∀ r', r' ≠ r → r' ∈ live.map (·.resource) → r' ∈ result.live.map (·.resource)) →
          TornDown lease (⟨lease, r⟩ :: refs) w ⟨live, result.locks, error⟩ v := by
        intro result v live error hv hsub hr hlive
        refine ⟨fun r' hr' => ?_, fun r' hr' hc => ?_, hsub, fun hall => ?_⟩
        · rw [List.map_cons, List.mem_cons, not_or] at hr'
          exact (hone.others r' hr'.1).trans (hv.others r' hr'.2)
        · by_cases heq : r' = r
          · subst heq
            refine ⟨(hone.restored hc).2.alike (hv.others r' hnot), ?_⟩
            rw [(hr hc).1]
            exact fun hmem => hnot ((hv.sublist.map _).subset hmem)
          · have hmem : r' ∈ refs.map (·.resource) := (List.mem_cons.mp hr').resolve_left heq
            obtain ⟨hback, hgone⟩ := hv.restored r' hmem ((hsame r' hmem).restorable hc)
            exact ⟨(hsame r' hmem).restoredFrom hback, fun hin => hgone (hlive r' heq hin)⟩
        · rw [(hr (hall r List.mem_cons_self)).2]
          exact hv.all fun r' hr' => (hsame r' hr').restorable (hall r' (List.mem_cons_of_mem _ hr'))
      match answer with
      | .ok _ =>
          refine (hrest _).mono fun result v hv => ⟨?_, hv.2.trans htokens⟩
          exact hjoin hv.1 (hv.1.sublist.cons _) (fun _ => ⟨rfl, rfl⟩) fun _ _ hin => hin
      | .error error =>
          refine (hrest _).bind fun result v hv => ⟨?_, hv.2.trans htokens⟩
          refine hjoin hv.1 (hv.1.sublist.cons_cons _) (fun hc => ?_) fun r' hne hin => ?_
          · exact absurd (hone.restored hc).1 (by simp)
          · exact (List.mem_cons.mp hin).resolve_left hne

/-- What `restoreState` leaves of a lease with the live part `state`: every record that can be
restored is, and leaves the lease; when all of them can be, it succeeds. -/
structure StateRestored (L : LeaseId) (state : LiveLease) (w : World)
    (answer : Except Error Unit × Lease) (v : World) : Prop where
  restored : ∀ r ∈ state.live.map (·.resource), Restorable L (w.cells r) →
    RestoredFrom L (w.cells r) (v.cells r) ∧ ∀ error left, answer.1 = .error error →
      answer.2.state = some left → r ∉ left.live.map (·.resource)
  ok : (∀ r ∈ state.live.map (·.resource), Restorable L (w.cells r)) → answer.1 = .ok ()

/-- The end of `restoreState`. -/
lemma stops_tornDown {lease : Lease} {state : LiveLease} {result : Teardown}
    (h : TornDown L state.live w result v) :
    WorldStops i m (match result.error with
      | none => do
          releaseAll result.locks
          return (.ok (), { lease with state := none })
      | some error =>
          return (.error error, { lease with state := some ⟨result.live, result.locks, .restoring⟩ }) :
        FakeManaged (Except Error Unit × Lease)) (StateRestored L state w) v := by
  cases herror : result.error with
  | none =>
      refine (stops_releaseAll _).bind fun _ x hx => ⟨fun r hr hc => ?_, fun _ => rfl⟩
      exact ⟨(h.restored r hr hc).1.alike (hx.1 r), fun _ _ he => absurd he (by simp)⟩
  | some error =>
      refine ⟨fun r hr hc => ⟨(h.restored r hr hc).1, fun _ left _ hleft => ?_⟩, fun hall => ?_⟩
      · obtain rfl := Option.some.inj hleft
        exact (h.restored r hr hc).2
      · exact absurd ((h.all hall).symm.trans herror) (by simp)

lemma stops_restoreState {M : FakeManager} {lease : Lease} {state : LiveLease}
    (hM : M.backend = fakeBackend caps) (hof : lease.Of L) (hstate : lease.state = some state)
    (hfree : ∀ token, w.tokens m token = none)
    (h : ∀ r ∈ state.live.map (·.resource), InOrder r L (w.cells r)) :
    WorldStops i m (lease.restoreState M) (StateRestored L state w) w := by
  have hwf := hof.wf state hstate
  unfold Lease.restoreState
  simp only [hstate, hM]
  refine (stops_teardown (fun ref href => (hwf.lease ref href).trans hof.leaseId) hwf.distinct
    hfree h).bind fun result v hv => ?_
  split
  · unfold releaseEnforceWatch
    split
    · exact stops_tornDown hv.1
    · refine stops_aside rfl fun _ x hx _ => stops_tornDown ?_
      exact ⟨fun r hr => (hv.1.others r hr).trans (hx r), fun r hr hc =>
        ⟨(hv.1.restored r hr hc).1.alike (hx r), (hv.1.restored r hr hc).2⟩, hv.1.sublist, hv.1.all⟩
  · exact stops_tornDown hv.1

/-- What a restore without faults and without others at work does for a lease with the live part
`state`: every record that can be restored is, and leaves the lease; when all of them can be, the
restore succeeds. -/
structure Unstuck (L : LeaseId) (state : LiveLease) (w : World)
    (answer : Except (Error × Lease) Unit) (v : World) : Prop where
  restored : ∀ r ∈ state.live.map (·.resource), Restorable L (w.cells r) →
    RestoredFrom L (w.cells r) (v.cells r) ∧ ∀ error lease left, answer = .error (error, lease) →
      lease.state = some left → r ∉ left.live.map (·.resource)
  ok : (∀ r ∈ state.live.map (·.resource), Restorable L (w.cells r)) → answer = .ok ()

lemma stops_restore {M : FakeManager} {lease : Lease} {state : LiveLease}
    (hM : M.backend = fakeBackend caps) (hof : lease.Of L) (hstate : lease.state = some state)
    (hfree : ∀ token, w.tokens m token = none)
    (h : ∀ r ∈ state.live.map (·.resource), InOrder r L (w.cells r)) :
    WorldStops i m (lease.restore M) (Unstuck L state w) w := by
  refine (stops_restoreState hM hof hstate hfree h).bind fun answer v hv => ?_
  obtain ⟨answer, left⟩ := answer
  cases answer with
  | ok _ => exact ⟨fun r hr hc => ⟨(hv.restored r hr hc).1, fun _ _ _ he => absurd he (by simp)⟩,
      fun _ => rfl⟩
  | error error =>
      refine ⟨fun r hr hc => ⟨(hv.restored r hr hc).1, fun _ _ state he hs => ?_⟩, fun hall => ?_⟩
      · obtain ⟨rfl, rfl⟩ := Prod.mk.inj (Except.error.inj he)
        exact (hv.restored r hr hc).2 _ state rfl hs
      · exact absurd (hv.ok hall) (by simp)

namespace System

variable {S : Setup} {s : System}

/-- The live records of an idle lease are in order when nothing runs. -/
lemma SerialOn.inOrder (h : SerialOn S r s) (hquiet : ∀ i, s.sessions i = none) {lease : Lease}
    {state : LiveLease} (hidle : s.leases L = some (m, lease)) (hof : lease.Of L)
    (hstate : lease.state = some state) (hr : r ∈ state.live.map (·.resource)) :
    InOrder r L (s.world.cells r) := by
  have hrest := h.idle fun i session hi => absurd hi (by simp [hquiet i])
  have hlock := (h.holds L m lease hidle).lock state hstate hr
  rw [hof.leaseId] at hlock
  obtain ⟨live, hlive, hok⟩ := hrest.held m L trivial hlock
  exact ⟨live, hrest.inv, hlive, hok, .refl _⟩

/-- In every state that serial runs reach, whatever failed before, a restore without faults gets
through every record whose resource the lease wrote last and that is still the one it leased. -/
theorem restore_unstuck (hserial : S.serial)
    (hfire : ¬ S.faults (.engine (.fire .afterUpdatePrepared))) (h : Reachable S s)
    (hquiet : ∀ i, s.sessions i = none) {lease : Lease} {state : LiveLease}
    (hidle : s.leases L = some (m, lease)) (hstate : lease.state = some state) (i : SessionId) :
    (lease.restore (S.manager m)).Stops (World.handler noFaults i m) (Unstuck L state s.world)
      s.world := by
  have hof := ((Keyed.reachable h).idle L (m, lease) hidle).2
  refine stops_restore rfl hof hstate (tokens_free h hquiet m) fun r hr => ?_
  exact (SerialOn.reachable hserial hfire h).inOrder hquiet hidle hof hstate hr

/-- A lease that changed the native state and restores it. -/
theorem restore_unstuck_applied : ∃ (s : System) (lease : Lease) (v : World),
    Reachable (oneAtATime .cooperative) s ∧ s.leases 0 = some (0, lease) ∧
      (s.world.cells .loopback).state ≠ some .empty ∧
      (lease.restore ((oneAtATime .cooperative).manager 0)).Runs (World.handler noFaults 1 0) s.world
        (.ok ()) v ∧ (v.cells .loopback).state = some .empty := by
  have hrun : ((pristine (World.pristine (.single .loopback) .empty)).performOrderly
      (oneAtATime .cooperative) [.start 0 (.apply ⟨.global, [], [], [], some true⟩), .run 0 32,
        .finish 0]).any (fun s =>
          decide (s.leases 0 = some (0, ⟨0, [.loopback], false,
            some ⟨[⟨0, .loopback⟩], [.loopback], .active⟩⟩)) && s.atRest &&
            decide ((s.world.cells .loopback).state ≠ some .empty) &&
            decide ((s.world.cells .loopback).writer = .engine 0) &&
            ((s.world.cells .loopback).live 0).any fun live =>
              decide (((s.world.cells .loopback).resourceStatus live.record.identity).toOption =
                some .same) &&
                decide (live.record.before.data.state = .empty)) = true := by
    decide +kernel
  obtain ⟨s, hs, hstate⟩ := (Option.any_eq_true _ _).mp hrun
  simp only [Bool.and_eq_true, decide_eq_true_eq] at hstate
  obtain ⟨⟨⟨⟨hidle, hrest⟩, hdiffers⟩, hwriter⟩, hlive⟩ := hstate
  obtain ⟨live, hlive, hsame⟩ := (Option.any_eq_true _ _).mp hlive
  simp only [Bool.and_eq_true, decide_eq_true_eq] at hsame
  have hreach : Reachable (oneAtATime .cooperative) s := reachable_performOrderly hs
  have hrestorable : Restorable 0 (s.world.cells .loopback) := by
    refine ⟨hwriter, live, hlive, ?_⟩
    cases hs : (s.world.cells .loopback).resourceStatus live.record.identity with
    | ok status =>
        rw [hs] at hsame
        exact congrArg _ (Option.some.inj hsame.1)
    | error error =>
        rw [hs] at hsame
        exact absurd hsame.1 (by simp [Except.toOption])
  obtain ⟨answer, v, hruns, hunstuck⟩ := (restore_unstuck trivial (oneAtATime_hook _) hreach
    (hreach.sessions_none hrest) hidle rfl 1).exists_run
  have hmem : ∀ r ∈ [(⟨0, .loopback⟩ : LiveRef)].map (·.resource),
      Restorable 0 (s.world.cells r) := fun r hr => by
    obtain rfl := List.mem_singleton.mp hr
    exact hrestorable
  obtain rfl := hunstuck.ok hmem
  obtain ⟨⟨live', hlive', hback, -⟩, -⟩ :=
    hunstuck.restored .loopback (List.mem_singleton.mpr rfl) hrestorable
  obtain rfl := Option.some.inj (hlive.symm.trans hlive')
  exact ⟨s, _, v, hreach, hidle, hdiffers, hruns, hback.trans (congrArg some hsame.2)⟩

end System

end Osdns
