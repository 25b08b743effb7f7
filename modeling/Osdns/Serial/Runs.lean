import Osdns.Provenance.Bases
import Osdns.Provenance.Names
import Osdns.Serial.Managers

/-!
# Serial runs, on one resource

Runs of a system in which the operations on one resource run one at a time.  Seen from the cell of
a resource `r`, either no session claims `r` and the cell is at rest, or one session does and its
program meets the specification of its request; all other sessions only interfere.

The run theorem `SerialOn.reachable` puts the specifications of `Serial/Leases.lean` and
`Serial/Managers.lean` to use: it holds in every reachable state, also between two calls of an
operation and after a crash.
-/

namespace Osdns

open Interaction

variable {r : ResourceId} {L K : LeaseId} {c d : Cell}
variable {F : Faults} {i : SessionId} {m : ManagerId}

/-! ## Calls of the world, seen from a cell -/

namespace World

variable {w w' : World} {o : ManagerOp FakeSnapshotData FakeIdentity}
variable {answer : ManagerRet FakeSnapshotData FakeIdentity o}

/-- A record that is listed for `r` is in the journal of `r`. -/
lemma Labelled.listed (h : w.Labelled) {record : FakeRecord} (hx : record ∈ w.records)
    (hr : record.resource = r) : (w.cells r).record record.leaseId = some record := by
  obtain ⟨r', -, listed⟩ := List.mem_flatMap.mp hx
  obtain ⟨⟨K, x⟩, entry, rfl⟩ := List.mem_map.mp listed
  have hrecord : (w.cells r').record K = some x := AList.mem_lookup_iff.mpr entry
  have named := (h r').journal K x hrecord
  obtain rfl : x.leaseId = K := named.leaseId
  obtain rfl : x.resource = r' := named.resource
  exact hr ▸ hrecord

/-- A call that is not about `r` is answered as `Elsewhere` says. -/
lemma Labelled.elsewhere (h : w.Labelled) (hx : World.handler F i m o w answer w') :
    Elsewhere F i r (w.cells r) o answer := by
  have hnamed : (sessionProvenance i anyOrigin).expects ∅ o answer ∧ ManagerNamed o answer :=
    h.expected hx
  refine ⟨hnamed.2, ?_⟩
  obtain ⟨fate, hF, hx⟩ := hx
  cases o with
  | engine o =>
      cases o with
      | fire point =>
          cases fate <;> simp only [World.exec, ManagerOp.target, EngineOp.target,
            World.execGlobal, Option.some.injEq, Prod.mk.injEq] at hx
          · exact .inl hx.1.symm
          · exact .inr (by simpa using hF)
          · exact .inr (by simpa using hF)
      | newLeaseId =>
          cases fate <;> simp only [World.exec, ManagerOp.target, EngineOp.target,
            World.execGlobal, Option.some.injEq, Prod.mk.injEq] at hx <;> exact hx.1.symm
      | journalRecords =>
          intro records hrecords record hmem hr
          cases fate <;> simp only [World.exec, ManagerOp.target, EngineOp.target,
            World.execGlobal, World.readRecords, Option.some.injEq, Prod.mk.injEq] at hx
          · rw [← hx.1] at hrecords
            split at hrecords
            · exact h.listed (Except.ok.inj hrecords ▸ hmem) hr
            · exact absurd hrecords (by simp)
          · exact absurd (hx.1.trans hrecords) (by simp)
          · exact absurd (hx.1.trans hrecords) (by simp)
      | _ => trivial
  | _ => trivial

/-- A call of the world is a call as the cell of `r` sees it. -/
lemma Labelled.handler_cell (h : w.Labelled) (hx : World.handler F i m o w answer w') :
    Cell.handler F i m r o (w.cells r) answer (w'.cells r) := by
  have helse := h.elsewhere (r := r) hx
  obtain ⟨fate, hF, hx⟩ := hx
  unfold Cell.handler
  rcases exec_cells hx r with ⟨ht, hcell⟩ | ⟨ht, hcell⟩
  · rw [if_pos ht]
    exact ⟨w.clock, w.nextToken, fate, hF, hcell⟩
  · rw [if_neg ht]
    exact ⟨hcell, helse⟩

end World

/-- A lease that was given up stays so. -/
lemma Chronicle.givenUp (h : Chronicle c d) (hc : GivenUp L c) : GivenUp L d :=
  hc.imp fun _ hr => ⟨hr.1, h.removals _ hr.2⟩

/-! ## What happens besides the sessions -/

lemma Cell.External.interference (h : Cell.External c d) : Interference c d := by
  have hchanged : ∀ {state : Option FakeState} {generation : Nat} {writer : Writer}
      {incarnation : Nat} {log : List Event} {ambiguous : Bool},
      NativeShift c { c with state, generation, writer, incarnation, log, ambiguous } →
      Interference c { c with state, generation, writer, incarnation, log, ambiguous } :=
    fun hn => ⟨⟨rfl, rfl, rfl, rfl, rfl, hn⟩, rfl, rfl⟩
  cases h with
  | write state => exact hchanged (.inr ⟨rfl, Nat.le_succ _, .inr (Nat.lt_succ_self _)⟩)
  | replace state => exact hchanged (.inr ⟨rfl, Nat.le_succ _, .inr (Nat.lt_succ_self _)⟩)
  | remove => exact hchanged (.inr ⟨rfl, le_rfl, .inl rfl⟩)
  | setAmbiguous ambiguous => exact hchanged (.inl ⟨rfl, rfl, rfl⟩)

/-- Native changes, notifications and time are interference. -/
lemma World.Environment.interferes {w w' : World} (h : World.Environment w w')
    (r : ResourceId) : Interference (w.cells r) (w'.cells r) := by
  have hsame : Interference (w.cells r) (w.cells r) := interference.refl _
  cases h with
  | external r' c hc =>
      by_cases hr : r = r'
      · subst hr
        simpa [World.setCell] using hc.interference
      · simpa [World.setCell, hr] using hsame
  | retopology topology => exact hsame
  | notify m r' =>
      by_cases hr : r = r'
      · subst hr
        simpa [World.setCell] using (w.cells r).interference_pending _
      · simpa [World.setCell, hr] using hsame
  | tick duration => exact hsame

/-- The death of the process of `m` frees the lock it holds and ends its registration. -/
lemma World.crash_lock {w : World} :
    ((w.crash m).cells r).lock = (w.cells r).lock ∧ (∀ K, (w.cells r).lock ≠ some (m, K)) ∨
      ((w.crash m).cells r).lock = none ∧ ∃ K, (w.cells r).lock = some (m, K) := by
  simp only [World.crash]
  cases hlock : (w.cells r).lock with
  | none => exact .inl ⟨rfl, fun _ => by simp⟩
  | some holder =>
      obtain ⟨owner, K⟩ := holder
      by_cases howner : owner = m
      · exact .inr ⟨by simp [howner], K, by rw [howner]⟩
      · exact .inl ⟨by simp [howner], fun K' h => howner (congrArg Prod.fst (Option.some.inj h))⟩

lemma World.crash_active {w : World} (m' : ManagerId) :
    ((w.crash m).cells r).active m' = if m' = m then none else (w.cells r).active m' := by
  simp only [World.crash, Function.update_apply]

lemma World.crash_drift {w : World} : Drift (w.cells r) ((w.crash m).cells r) :=
  ⟨rfl, rfl, rfl, rfl, rfl, .refl _⟩

/-- The crash of another manager. -/
lemma World.outside_crash {w : World} {m' : ManagerId} (hne : m' ≠ m) :
    Outside m' (w.cells r) ((w.crash m).cells r) := by
  refine ⟨World.crash_drift, ?_, ?_, fun m'' => ?_⟩
  · rcases World.crash_lock (w := w) (m := m) (r := r) with ⟨hl, -⟩ | ⟨hl, K, hK⟩
    · exact .inl hl
    · exact .inr ⟨hl, m, K, hne.symm, hK, by rw [World.crash_active, if_pos rfl]⟩
  · rw [World.crash_active, if_neg hne]
  · rw [World.crash_active]
    split
    · exact .inr rfl
    · exact .inl rfl

/-- What the crash of a manager leaves of a cell it was working on. -/
lemma Rest.crash {w : World} (h : Rest r (Others m) (w.cells r)) :
    AtRest r ((w.crash m).cells r) := by
  have hd : Drift (w.cells r) ((w.crash m).cells r) := World.crash_drift
  refine ⟨h.inv.drift hd, fun m' K _ hlock => ?_, fun m' K _ hactive => ?_⟩
  · rcases World.crash_lock (w := w) (m := m) (r := r) with ⟨hl, hfree⟩ | ⟨hl, -⟩
    · rw [hl] at hlock
      have hne : m' ≠ m := fun he => hfree K (he ▸ hlock)
      obtain ⟨live, hlive, hok⟩ := h.held m' K hne hlock
      exact ⟨live, (congrFun hd.live K).trans hlive, hok.drift hd⟩
    · exact absurd (hl.symm.trans hlock) (by simp)
  · rw [World.crash_active] at hactive
    split at hactive
    · exact absurd hactive (by simp)
    · rename_i hne
      obtain ⟨hlock, hintact⟩ := h.active m' K hne hactive
      refine ⟨?_, fun hmem => hintact (hd.removals ▸ hmem)⟩
      rcases World.crash_lock (w := w) (m := m) (r := r) with ⟨hl, -⟩ | ⟨-, K', hK'⟩
      · exact hl.trans hlock
      · rw [hlock] at hK'
        exact absurd (congrArg Prod.fst (Option.some.inj hK')) hne

/-! ## The invariant of serial runs -/

/-- A session that claims `r`, seen from its cell: the rest of its program meets the specification
of the request. -/
structure Session.Working (S : Setup) (r : ResourceId) (i : SessionId) (session : Session)
    (c : Cell) : Prop where
  rest : Rest r (Others session.manager) c
  sat : ManagerSat S.faults i session.manager (session.key i) r session.program
    (Finished r session.manager) c

namespace System

variable {S : Setup} {s t : System}

/-- What holds of `r` between any two steps of a serial run. -/
structure SerialOn (S : Setup) (r : ResourceId) (s : System) : Prop where
  idle : (∀ i session, s.sessions i = some session → ¬ session.claims r) →
    AtRest r (s.world.cells r)
  working : ∀ i session, s.sessions i = some session → session.claims r →
    session.Working S r i (s.world.cells r)
  away : ∀ i session, s.sessions i = some session → ¬ session.claims r →
    session.program.Yields (AnswersAway r i) (Outcome.Without r)
  alone : ∀ i j a b, s.sessions i = some a → s.sessions j = some b → a.claims r → b.claims r →
    i = j
  holds : ∀ K m lease, s.leases K = some (m, lease) → HandleOn r m lease (s.world.cells r)
  fresh : ∀ K, s.next ≤ K → Fresh K (s.world.cells r)

namespace SerialOn

/-- The invariant of the cell holds whoever works on it. -/
lemma inv (h : SerialOn S r s) : CellInv r (s.world.cells r) := by
  by_cases hclaims : ∃ i session, s.sessions i = some session ∧ session.claims r
  · obtain ⟨i, session, hi, hr⟩ := hclaims
    exact (h.working i session hi hr).rest.inv
  · exact (h.idle fun i session hi hr => hclaims ⟨i, session, hi, hr⟩).inv

lemma init (h : Initial s) : SerialOn S r s := by
  obtain ⟨state, generation, incarnation, ambiguous, hcell⟩ := h.cells r
  have hnone : ∀ {i session}, s.sessions i ≠ some session := fun hi =>
    absurd hi (by simp [h.sessions])
  refine ⟨fun _ => ?_, fun i session hi => absurd hi hnone, fun i session hi => absurd hi hnone,
    fun i _ _ _ hi => absurd hi hnone, fun K m lease hl => absurd hl (by simp [h.leases]),
    fun K _ => ?_⟩
  · rw [hcell]
    exact ⟨⟨fun L record hr => absurd hr (by simp [Cell.record]), fun L ho => absurd ho (by simp [Ours]),
      fun L record hr => absurd hr (by simp), fun L live hl => absurd hl (by simp)⟩,
      fun m L _ hl => absurd hl (by simp), fun m L _ ha => absurd ha (by simp)⟩
  · rw [hcell]
    exact ⟨rfl, by simp [Cell.record], rfl, by simp [Ours], by simp [Retired]⟩

/-- A change of the cell that every manager takes for interference. -/
lemma interfered {w : World} (h : SerialOn S r s)
    (hd : ∀ m, Outside m (s.world.cells r) (w.cells r)) : SerialOn S r { s with world := w } where
  idle hnone := Rest.stable (hd 0) (h.idle hnone)
  working i session hi hr :=
    ⟨Rest.stable (hd session.manager) (h.working i session hi hr).rest,
      (h.working i session hi hr).sat.rely (hd session.manager)⟩
  away := h.away
  alone := h.alone
  holds K m lease hl := HandleOn.stable (hd m) (h.holds K m lease hl)
  fresh K hK := (h.fresh K hK).drift (hd 0).toDrift

/-- A new session that finds `r` unclaimed, or does not claim it. -/
lemma spawn {session : Session} (h : SerialOn S r s) (hnext : s.sessions s.next = none)
    (hfree : ∀ i a, s.sessions i = some a → session.claims r → ¬ a.claims r)
    (hwork : session.claims r → session.Working S r s.next (s.world.cells r))
    (haway : ¬ session.claims r →
      session.program.Yields (AnswersAway r s.next) (Outcome.Without r)) :
    SerialOn S r (s.spawn session) := by
  refine ⟨fun hnone => h.idle fun i a hi => hnone i a ?_, fun i a hi hr => ?_, fun i a hi hr => ?_,
    fun i j a b hi hj ha hb => ?_, h.holds, fun K hK => h.fresh K (Nat.le_of_succ_le hK)⟩
  · refine (Function.update_of_ne (fun he => ?_) ..).trans hi
    rw [he, hnext] at hi
    exact absurd hi (by simp)
  · obtain ⟨rfl, ha⟩ | ⟨-, hi⟩ := update_eq_some hi
    · obtain rfl := Option.some.inj ha
      exact hwork hr
    · exact h.working i a hi hr
  · obtain ⟨rfl, ha⟩ | ⟨-, hi⟩ := update_eq_some hi
    · obtain rfl := Option.some.inj ha
      exact haway hr
    · exact h.away i a hi hr
  · obtain ⟨rfl, hsa⟩ | ⟨-, hi⟩ := update_eq_some hi <;>
      obtain ⟨rfl, hsb⟩ | ⟨-, hj⟩ := update_eq_some hj
    · rfl
    · obtain rfl := Option.some.inj hsa
      exact absurd hb (hfree j b hj ha)
    · obtain rfl := Option.some.inj hsb
      exact absurd ha (hfree i a hi hb)
    · exact h.alone i j a b hi hj ha hb

/-- The lease a session starts to work on is no longer idle. -/
lemma take (h : SerialOn S r s) (id : LeaseId) :
    SerialOn S r { s with leases := Function.update s.leases id none } where
  idle := h.idle
  working := h.working
  away := h.away
  alone := h.alone
  holds K m lease hl :=
    h.holds K m lease ((update_eq_some hl).resolve_left fun he => absurd he.2 (by simp)).2
  fresh := h.fresh

section Call

variable {session : Session} {o : ManagerOp FakeSnapshotData FakeIdentity}
variable {k : ManagerRet FakeSnapshotData FakeIdentity o → FakeManaged Outcome}
variable {answer : ManagerRet FakeSnapshotData FakeIdentity o} {w : World}

/-- A call of the session that claims `r`. -/
lemma call_claimed (h : SerialOn S r s) (hkeyed : s.Keyed) (running : s.sessions i = some session)
    (program : session.program = .call o k) (hclaims : session.claims r)
    (hchron : Chronicle (s.world.cells r) (w.cells r))
    (hx : Cell.handler S.faults i session.manager r o (s.world.cells r) answer (w.cells r)) :
    SerialOn S r { s with
      world := w
      sessions := Function.update s.sessions i (some { session with program := k answer }) } := by
  obtain ⟨-, hsat⟩ := h.working i session running hclaims
  rw [program] at hsat
  obtain ⟨⟨hrest, htraced, hothers⟩, hk⟩ := hsat _ ((outside _).refl _) answer _ hx
  have hother : ∀ j a, j ≠ i → s.sessions j = some a → ¬ a.claims r := fun j a hne hj ha =>
    hne (h.alone j i a session hj running ha hclaims)
  refine ⟨fun hnone => ?_, fun j a hj hr => ?_, fun j a hj hr => ?_, fun j j' a b hj hj' ha hb => ?_,
    fun K m lease hl => ?_, fun K hK => ?_⟩
  · exact absurd hclaims (hnone i { session with program := k answer } (Function.update_self ..))
  · obtain ⟨rfl, ha⟩ | ⟨hne, hj⟩ := update_eq_some hj
    · obtain rfl := Option.some.inj ha
      exact ⟨hrest, hk⟩
    · exact absurd hr (hother j a hne hj)
  · obtain ⟨rfl, ha⟩ | ⟨hne, hj⟩ := update_eq_some hj
    · obtain rfl := Option.some.inj ha
      exact absurd hclaims hr
    · exact h.away j a hj hr
  · have hself : ∀ {j a}, Function.update s.sessions i
        (some { session with program := k answer }) j = some a → a.claims r → j = i :=
      fun hj ha => (update_eq_some hj).elim And.left fun he => absurd ha (hother _ _ he.1 he.2)
    exact (hself hj ha).trans (hself hj' hb).symm
  · have hkey : lease.leaseId ≠ session.key i := fun he => by
      rw [(hkeyed.idle K (m, lease) hl).2.leaseId] at he
      exact absurd ((he ▸ hkeyed.taken i session running).symm.trans hl) (by simp)
    have hon := h.holds K m lease hl
    refine ⟨fun state hs hr => hothers.lock m _ (hon.lock state hs hr) hkey,
      fun state hs hr hphase => ?_⟩
    exact (hon.registered state hs hr hphase).elim (fun ha => hothers.active m _ ha hkey)
      fun hg => .inr (hchron.givenUp hg)
  · refine htraced.fresh K (fun he => ?_) (h.fresh K hK)
    exact absurd (he ▸ (hkeyed.started i session running).1) (not_lt.mpr hK)

/-- A call of a session that does not claim `r`. -/
lemma call_elsewhere (h : SerialOn S r s) (running : s.sessions i = some session)
    (program : session.program = .call o k) (hclaims : ¬ session.claims r)
    (ht : o.target ≠ some r) (hanswer : HandleAnswers i o answer)
    (hx : Cell.handler S.faults i session.manager r o (s.world.cells r) answer (w.cells r)) :
    SerialOn S r { s with
      world := w
      sessions := Function.update s.sessions i (some { session with program := k answer }) } := by
  have hu : Untouched (s.world.cells r) (w.cells r) := Cell.handler_other hx ht
  have hw : SerialOn S r { s with world := w } := h.interfered fun m => hu.interference.outside
  have haway := h.away i session running hclaims
  rw [program] at haway
  have hold : ∀ {j a}, Function.update s.sessions i (some { session with program := k answer }) j =
      some a → a.claims r → s.sessions j = some a := fun hj ha => by
    obtain ⟨rfl, he⟩ | ⟨-, hj⟩ := update_eq_some hj
    · obtain rfl := Option.some.inj he
      exact absurd ha hclaims
    · exact hj
  refine ⟨fun hnone => hw.idle fun j a hj ha => ?_, fun j a hj ha => hw.working j a (hold hj ha) ha,
    fun j a hj ha => ?_, fun j j' a b hj hj' ha hb => h.alone j j' a b (hold hj ha) (hold hj' hb) ha hb,
    hw.holds, hw.fresh⟩
  · refine hnone j a ((Function.update_of_ne (fun he => hclaims ?_) ..).trans hj) ha
    obtain rfl := Option.some.inj ((he ▸ hj : s.sessions i = some a).symm.trans running)
    exact ha
  · obtain ⟨rfl, he⟩ | ⟨-, hj⟩ := update_eq_some hj
    · obtain rfl := Option.some.inj he
      exact haway answer ⟨hanswer, ht⟩
    · exact h.away j a hj ha

end Call

/-- A session that ends leaves the cell at rest. -/
lemma finish {session : Session} {outcome : Outcome} (h : SerialOn S r s)
    (running : s.sessions i = some session) (program : session.program = .done outcome) :
    SerialOn S r (s.finish i session.manager outcome) := by
  have hold : ∀ {j a}, Function.update s.sessions i none j = some a → j ≠ i ∧ s.sessions j = some a :=
    fun hj => (update_eq_some hj).resolve_left fun he => absurd he.2 (by simp)
  have hfinished : session.claims r → Finished r session.manager outcome (s.world.cells r) :=
    fun hr => by
      have hsat := (h.working i session running hr).sat
      rw [program] at hsat
      exact hsat _ ((outside _).refl _)
  refine ⟨fun hnone => ?_, fun j a hj => h.working j a (hold hj).2, fun j a hj =>
    h.away j a (hold hj).2, fun j j' a b hj hj' => h.alone j j' a b (hold hj).2 (hold hj').2,
    fun K m lease hl => ?_, h.fresh⟩
  · by_cases hr : session.claims r
    · exact (hfinished hr).1
    · refine h.idle fun j a hj ha => ?_
      by_cases hji : j = i
      · subst hji
        exact hr (Option.some.inj (hj.symm.trans running) ▸ ha)
      · exact hnone j a ((Function.update_of_ne hji ..).trans hj) ha
  · cases hhandle : outcome.handle with
    | none =>
        simp only [System.finish, hhandle] at hl
        exact h.holds K m lease hl
    | some left =>
        simp only [System.finish, hhandle] at hl
        obtain ⟨-, he⟩ | ⟨-, hl⟩ := update_eq_some hl
        · obtain ⟨rfl, rfl⟩ := Prod.mk.inj (Option.some.inj he)
          by_cases hr : session.claims r
          · exact (hfinished hr).2 left hhandle
          · have haway := h.away i session running hr
            rw [program] at haway
            exact ⟨fun state hs hmem => absurd hmem (haway left state hhandle hs),
              fun state hs hmem => absurd hmem (haway left state hhandle hs)⟩
        · exact h.holds K m lease hl

/-- The crash of a manager. -/
lemma crash (h : SerialOn S r s) (m : ManagerId) : SerialOn S r { s with
    world := s.world.crash m
    sessions := fun i => (s.sessions i).filter fun session => session.manager ≠ m
    leases := fun l => (s.leases l).filter fun entry => entry.1 ≠ m } := by
  have hold : ∀ {i session}, ((s.sessions i).filter fun session => session.manager ≠ m) =
      some session → s.sessions i = some session ∧ session.manager ≠ m := fun hi => by
    obtain ⟨hi, hm⟩ := Option.filter_eq_some_iff.mp hi
    exact ⟨hi, by simpa using hm⟩
  refine ⟨fun hnone => ?_, fun i a hi hr => ?_, fun i a hi => h.away i a (hold hi).1,
    fun i j a b hi hj => h.alone i j a b (hold hi).1 (hold hj).1, fun K m' lease hl => ?_,
    fun K hK => (h.fresh K hK).drift World.crash_drift⟩
  · by_cases hclaims : ∃ i session, s.sessions i = some session ∧ session.claims r
    · obtain ⟨i, session, hi, hr⟩ := hclaims
      have hm : session.manager = m := by
        by_contra hm
        exact hnone i session (Option.filter_eq_some_iff.mpr ⟨hi, by simpa using hm⟩) hr
      exact Rest.crash (hm ▸ (h.working i session hi hr).rest)
    · exact Rest.crash (h.idle fun i session hi hr => hclaims ⟨i, session, hi, hr⟩).others
  · obtain ⟨hi, hm⟩ := hold hi
    have hworking := h.working i a hi hr
    exact ⟨Rest.stable (World.outside_crash hm) hworking.rest,
      hworking.sat.rely (World.outside_crash hm)⟩
  · obtain ⟨hl, hm⟩ := Option.filter_eq_some_iff.mp hl
    exact HandleOn.stable (World.outside_crash (by simpa using hm)) (h.holds K m' lease hl)

lemma step (hserial : S.serial) (hfire : ¬ S.faults (.engine (.fire .afterUpdatePrepared)))
    (hkeyed : s.Keyed) (hlabelled : s.Labelled) (h : SerialOn S r s) (hst : Step S s t) :
    SerialOn S r t := by
  have hnext : s.sessions s.next = none := by
    cases hs : s.sessions s.next with
    | none => rfl
    | some session => exact absurd (hkeyed.started _ session hs).1 (lt_irrefl _)
  have hbackend : ∀ m, (S.manager m).backend = fakeBackend (S.capabilities m) := fun _ => rfl
  cases hst with
  | start m request claims alone enforced free =>
      have hfree : ∀ i a, s.sessions i = some a → claims r → ¬ a.claims r :=
        fun i a hi hr => free hserial i a hi r hr
      refine h.spawn hnext hfree (fun hr => ?_) fun _ => yields_alone_away
      have hrest := h.idle fun i a hi ha => hfree i a hi hr ha
      exact ⟨hrest.others, sat_alone (hbackend m) ⟨hrest, h.fresh _ le_rfl⟩⟩
  | startOn m request lease id onLease idle free =>
      obtain ⟨-, hof⟩ := hkeyed.idle id (m, lease) idle
      have hfree : ∀ i a, s.sessions i = some a → r ∈ lease.resources → ¬ a.claims r :=
        fun i a hi hr => free hserial i a hi r hr
      refine (h.take id).spawn hnext hfree (fun hr => ?_) fun hr => yields_onLease_away hof.wf hr
      have hrest := h.idle fun i a hi ha => hfree i a hi hr ha
      exact ⟨hrest.others, sat_onLease (hbackend m) hof.wf hr hfire
        ⟨hrest, h.holds id m lease idle⟩⟩
  | call i session o k answer w running program claimed answered =>
      have hx := hlabelled.world.handler_cell (r := r) answered
      by_cases hr : session.claims r
      · exact h.call_claimed hkeyed running program hr (World.chronicle answered r) hx
      · exact h.call_elsewhere running program hr (fun ht => hr (claimed r ht))
          (World.handler_answers answered) hx
  | finish i session outcome running program => exact h.finish running program
  | environment w henv => exact h.interfered fun m => (henv.interferes r).outside
  | crash m => exact h.crash m

/-- Every state of a serial run is as the specifications of the operations say. -/
theorem reachable (hserial : S.serial)
    (hfire : ¬ S.faults (.engine (.fire .afterUpdatePrepared))) (h : Reachable S s) :
    SerialOn S r s := by
  induction h with
  | init h => exact .init h
  | step h hst ih => exact ih.step hserial hfire (.reachable h) (.reachable h) hst

end SerialOn

end System

end Osdns
