import Osdns.Serial.Elsewhere
import Osdns.Serial.LiveRecord

/-!
# Sessions on one resource

Manager programs seen from the cell of a resource they claim.  Between two calls the native
state may change from outside and another manager may crash, which frees the lock it held
(`Outside`).  Each call keeps what the other managers rely on (`Rest` among them), accounts for
its effect (`Traced`), and never takes away a lock or a registration of another lease.

An engine program runs under the session's own lock; there the crash of another manager changes
nothing, and its specification over `Interference` carries over (`sat_engine`).
-/

namespace Osdns

open Interaction

variable {r r' : ResourceId} {L K : LeaseId} {c d : Cell}
variable {F : Faults} {i : SessionId} {m : ManagerId} {α β : Type}

/-! ## The rest of the system -/

/-- What others may do to a cell that a session of `m` claims. -/
structure Outside (m : ManagerId) (c d : Cell) : Prop extends Drift c d where
  lock : d.lock = c.lock ∨
    d.lock = none ∧ ∃ m' L, m' ≠ m ∧ c.lock = some (m', L) ∧ d.active m' = none
  active : d.active m = c.active m
  others : ∀ m', d.active m' = c.active m' ∨ d.active m' = none

lemma Outside.refl (m : ManagerId) (c : Cell) : Outside m c c :=
  ⟨.refl c, .inl rfl, rfl, fun _ => .inl rfl⟩

lemma Outside.trans {e : Cell} (h₁ : Outside m c d) (h₂ : Outside m d e) : Outside m c e where
  toDrift := h₁.toDrift.trans h₂.toDrift
  lock := by
    rcases h₁.lock with hl | ⟨hl, m', L, hne, hc, ha⟩
    · rw [← hl]
      exact h₂.lock
    · refine .inr ⟨h₂.lock.elim (·.trans hl) And.left, m', L, hne, hc, ?_⟩
      rcases h₂.others m' with h | h
      · rw [h, ha]
      · exact h
  active := h₂.active.trans h₁.active
  others m' := by
    rcases h₂.others m' with h | h
    · rw [h]
      exact h₁.others m'
    · exact .inr h

/-- `Outside` as a rely. -/
def outside (m : ManagerId) : Rely Cell where
  rel := Outside m
  refl := .refl m
  trans := .trans

lemma Interference.outside (h : Interference c d) : Outside m c d :=
  ⟨h.toDrift, .inl h.lock, congrFun h.active m, fun m' => .inl (congrFun h.active m')⟩

/-- What a group of managers relies on: the lease that holds the lock has a live record in
order, and is the only one registered. -/
structure Rest (r : ResourceId) (among : ManagerId → Prop) (c : Cell) : Prop where
  inv : CellInv r c
  held : ∀ m L, among m → c.lock = some (m, L) → ∃ live, c.live L = some live ∧ LiveOK r L live c
  active : ∀ m L, among m → c.active m = some L → c.lock = some (m, L) ∧ Intact L c

lemma Rest.stable {among : ManagerId → Prop} : Stable (outside m) (Rest r among) := fun h hc => by
  refine ⟨hc.inv.drift h.toDrift, fun m' L ha hlock => ?_, fun m' L ha hactive => ?_⟩
  · rcases h.lock with hl | ⟨hl, -⟩
    · obtain ⟨live, hlive, hok⟩ := hc.held m' L ha (hl ▸ hlock)
      exact ⟨live, (congrFun h.live L).trans hlive, hok.drift h.toDrift⟩
    · rw [hl] at hlock
      exact absurd hlock (by simp)
  · rcases h.others m' with ho | ho
    · obtain ⟨hlock, hr⟩ := hc.active m' L ha (ho ▸ hactive)
      refine ⟨?_, by rwa [Intact, h.removals]⟩
      rcases h.lock with hl | ⟨-, m'', L'', -, hl, hnone⟩
      · rw [hl, hlock]
      · obtain ⟨rfl, rfl⟩ : m' = m'' ∧ L = L'' := by simpa [hlock] using hl
        rw [hnone] at hactive
        exact absurd hactive (by simp)
    · rw [ho] at hactive
      exact absurd hactive (by simp)

lemma Rest.mono {among among' : ManagerId → Prop} (h : Rest r among c)
    (hle : ∀ m, among' m → among m) : Rest r among' c :=
  ⟨h.inv, fun m L ha => h.held m L (hle m ha), fun m L ha => h.active m L (hle m ha)⟩

/-- Between two sessions every manager counts. -/
abbrev AtRest (r : ResourceId) (c : Cell) : Prop := Rest r (fun _ => True) c

/-- While a session of `m` works, all the others do. -/
abbrev Others (m : ManagerId) : ManagerId → Prop := fun m' => m' ≠ m

lemma Rest.others {among : ManagerId → Prop} (h : AtRest r c) : Rest r among c :=
  h.mono fun _ _ => trivial

/-- The lock is held by `m` in the name of `L`, and nobody else is registered. -/
structure Owns (m : ManagerId) (L : LeaseId) (c : Cell) : Prop where
  lock : c.lock = some (m, L)
  active : ∀ m', m' ≠ m → c.active m' = none

lemma Rest.owns (h : Rest r (Others m) c) (hlock : c.lock = some (m, L)) : Owns m L c := by
  refine ⟨hlock, fun m' hne => ?_⟩
  cases ha : c.active m' with
  | none => rfl
  | some L' =>
      have := (h.active m' L' hne ha).1
      rw [hlock, Option.some.injEq, Prod.mk.injEq] at this
      exact absurd this.1.symm hne

/-- Under the own lock others only interfere. -/
lemma Outside.interference (h : Outside m c d) (ho : Owns m L c) : Interference c d := by
  refine ⟨h.toDrift, ?_, funext fun m' => ?_⟩
  · rcases h.lock with hl | ⟨-, m', L', hne, hl, -⟩
    · exact hl
    · rw [ho.lock, Option.some.injEq, Prod.mk.injEq] at hl
      exact absurd hl.1.symm hne
  · by_cases hm : m' = m
    · rw [hm, h.active]
    · rcases h.others m' with h | h
      · exact h
      · rw [h, ho.active m' hm]

lemma Owns.stable : Stable (outside m) (Owns m L) := fun h hc => by
  have hi := h.interference hc
  exact ⟨hi.lock.trans hc.lock, fun m' hne => by rw [hi.active]; exact hc.active m' hne⟩

/-- The own lock is enough for the others. -/
lemma Owns.rest (h : Owns m L c) (hinv : CellInv r c) : Rest r (Others m) c := by
  refine ⟨hinv, fun m' L' hne hlock => ?_, fun m' L' hne hactive => ?_⟩
  · rw [h.lock, Option.some.injEq, Prod.mk.injEq] at hlock
    exact absurd hlock.1.symm hne
  · rw [h.active m' hne] at hactive
    exact absurd hactive (by simp)

/-! ## Guarantees -/

/-- A step in the name of `K` takes away no lock that is held in another name, and no registration
of another lease that was not given up. -/
structure OthersKept (K : LeaseId) (c d : Cell) : Prop where
  lock : ∀ m L, c.lock = some (m, L) → L ≠ K → d.lock = some (m, L)
  active : ∀ m L, c.active m = some L → L ≠ K → d.active m = some L ∨ GivenUp L d

lemma OthersKept.same (hlock : d.lock = c.lock) (hactive : d.active = c.active) :
    OthersKept K c d :=
  ⟨fun _ _ hl _ => hlock.trans hl, fun m _ ha _ => .inl ((congrFun hactive m).trans ha)⟩

/-- What every call of a session of `m` in the name of `K` guarantees. -/
def managerGuarantee (r : ResourceId) (i : SessionId) (m : ManagerId) (K : LeaseId) :
    Handler (ManagerRet FakeSnapshotData FakeIdentity) Cell :=
  fun _ c _ d => Rest r (Others m) d ∧ Traced i c d ∧ OthersKept K c d

/-- `Program.Sat` for manager programs on the cell of `r`. -/
abbrev ManagerSat (F : Faults) (i : SessionId) (m : ManagerId) (K : LeaseId) (r : ResourceId)
    (p : FakeManaged α) (Q : α → Cell → Prop) (c : Cell) : Prop :=
  p.Sat (Cell.handler F i m r) (outside m) (managerGuarantee r i m K) Q c

lemma manager_pure {a : α} {Q : α → Cell → Prop} (hQ : Stable (outside m) (Q a)) (hc : Q a c) :
    ManagerSat F i m K r (pure a) Q c :=
  Program.Sat.done hQ hc fun _ h => h

lemma manager_bind {p : FakeManaged α} {k : α → FakeManaged β} {M : α → Cell → Prop}
    {Q : β → Cell → Prop} (hp : ManagerSat F i m K r p M c)
    (hk : ∀ a d, M a d → ManagerSat F i m K r (k a) Q d) :
    ManagerSat F i m K r (p >>= k) Q c :=
  Program.Sat.seq hp hk

/-- Steps that change nothing but locks, registrations and the bookkeeping of a manager. -/
structure Silent (c d : Cell) : Prop where
  journal : d.journal = c.journal
  live : d.live = c.live
  base : d.base = c.base
  removals : d.removals = c.removals
  confirmed : d.confirmed = c.confirmed
  state : d.state = c.state
  generation : d.generation = c.generation
  writer : d.writer = c.writer
  log : d.log = c.log

lemma Silent.drift (h : Silent c d) : Drift c d :=
  ⟨h.journal, h.live, h.base, h.removals, h.confirmed, .inl ⟨h.state, h.generation, h.writer⟩⟩

lemma Silent.traced (h : Silent c d) : Traced i c d where
  mutation _ _ _ _ _ _ cause old new time hlog := by
    rw [h.log] at hlog
    exact absurd hlog (by simp)
  release L live live' hl hb hl' hb' := by
    rw [h.live, hl, Option.some.injEq] at hl'
    rw [hl', hb'] at hb
    exact absurd hb (by simp)
  fresh _ _ hf := hf.drift h.drift

/-! ## Single calls -/

/-- Calls that touch neither the native state nor journal, live records, locks or
registrations. -/
def ManagerOp.isQuiet {D I : Type} : ManagerOp D I → Bool
  | .engine (.fire _) => true
  | .engine .journalRecords => true
  | .engine .newLeaseId => true
  | .engine _ => false
  | .acquire _ => false
  | .tryAcquire _ => false
  | .release _ => false
  | .activeInsert _ => false
  | .activeRemove _ => false
  | _ => true

/-- Nothing a program depends on has changed. -/
structure Untouched (c d : Cell) : Prop extends Silent c d where
  lock : d.lock = c.lock
  active : d.active = c.active

lemma Untouched.interference (h : Untouched c d) : Interference c d :=
  ⟨h.drift, h.lock, h.active⟩

lemma Untouched.refl (c : Cell) : Untouched c c :=
  ⟨⟨rfl, rfl, rfl, rfl, rfl, rfl, rfl, rfl, rfl⟩, rfl, rfl⟩

lemma Untouched.pending (h : d = { c with pending := d.pending }) : Untouched c d := by
  rw [h]
  exact ⟨⟨rfl, rfl, rfl, rfl, rfl, rfl, rfl, rfl, rfl⟩, rfl, rfl⟩

/-- Any call on another resource leaves the cell untouched. -/
lemma Cell.handler_other {o : ManagerOp FakeSnapshotData FakeIdentity}
    {answer : ManagerRet FakeSnapshotData FakeIdentity o}
    (h : Cell.handler F i m r o c answer d) (ho : o.target ≠ some r) : Untouched c d :=
  .pending (Cell.handler_elsewhere h ho).1

/-- A quiet call leaves the cell untouched. -/
lemma Cell.handler_quiet {o : ManagerOp FakeSnapshotData FakeIdentity}
    {answer : ManagerRet FakeSnapshotData FakeIdentity o}
    (h : Cell.handler F i m r o c answer d) (ho : o.isQuiet = true) : Untouched c d := by
  by_cases ht : o.target = some r
  · have hx := h
    unfold Cell.handler at hx
    rw [if_pos ht] at hx
    obtain ⟨now, token, fate, -, hx⟩ := hx
    cases o with
    | engine o => cases o <;> simp_all [ManagerOp.isQuiet, ManagerOp.target, EngineOp.target]
    | tokenGet resource =>
        simp only [Cell.exec] at hx
        split at hx <;> simp only [Option.some.injEq, Prod.mk.injEq] at hx <;>
          obtain ⟨-, rfl⟩ := hx <;> exact ⟨⟨rfl, rfl, rfl, rfl, rfl, rfl, rfl, rfl, rfl⟩, rfl, rfl⟩
    | _ =>
        simp_all only [Cell.exec, ManagerOp.isQuiet, ManagerOp.target, Option.some.injEq,
          Prod.mk.injEq, reduceCtorEq, Bool.false_eq_true]
        try
          obtain ⟨-, rfl⟩ := hx
          exact ⟨⟨rfl, rfl, rfl, rfl, rfl, rfl, rfl, rfl, rfl⟩, rfl, rfl⟩
  · exact Cell.handler_other h ht

/-- A call that leaves the cell untouched. -/
lemma manager_untouched {o : ManagerOp FakeSnapshotData FakeIdentity}
    {k : ManagerRet FakeSnapshotData FakeIdentity o → FakeManaged α} {Q : α → Cell → Prop}
    (hrest : Rest r (Others m) c)
    (ho : ∀ d e answer, Cell.handler F i m r o d answer e → Untouched d e)
    (hk : ∀ d e answer, Outside m c e → Drift c d → Cell.handler F i m r o d answer e →
      ManagerSat F i m K r (k answer) Q e) :
    ManagerSat F i m K r (.call o k) Q c := by
  intro d hd answer e he
  have hu := ho d e answer he
  have hce : Outside m c e := hd.trans hu.interference.outside
  refine ⟨⟨Rest.stable hce hrest, hu.traced, .same hu.lock hu.active⟩, ?_⟩
  exact hk d e answer hce hd.toDrift he

/-- A quiet call whose answer does not matter. -/
lemma manager_quiet {o : ManagerOp FakeSnapshotData FakeIdentity}
    {k : ManagerRet FakeSnapshotData FakeIdentity o → FakeManaged α} {Q : α → Cell → Prop}
    (hrest : Rest r (Others m) c) (ho : o.isQuiet = true)
    (hk : ∀ d answer, Outside m c d → ManagerSat F i m K r (k answer) Q d) :
    ManagerSat F i m K r (.call o k) Q c :=
  manager_untouched hrest (fun _ _ _ h => Cell.handler_quiet h ho)
    fun _ e answer he _ _ => hk e answer he

/-! ## Programs that make no call on the resource -/

/-- The program makes no call on `r`. -/
abbrev ManagerAway (r : ResourceId) (p : FakeManaged α) : Prop :=
  p.Only ManagerNamed fun o => o.target ≠ some r

lemma EngineAway.engine {p : Engine FakeSnapshotData FakeIdentity α} (hp : EngineAway r p) :
    ManagerAway r (engine p) := by
  induction p with
  | done a => trivial
  | call o k ih => exact ⟨hp.1, fun answer hanswer => ih answer (hp.2 answer hanswer)⟩

lemma EngineOn.engine_away {p : Engine FakeSnapshotData FakeIdentity α} (hp : EngineOn r' p)
    (hne : r' ≠ r) : ManagerAway r (engine p) :=
  (hp.away hne).engine

/-! ## Engine programs -/

/-- An engine program under the own lock. -/
lemma manager_engine {p : Engine FakeSnapshotData FakeIdentity α} {Q : α → Cell → Prop}
    (hp : EngineSat F i m r p Q c) (ho : Owns m L c) :
    ManagerSat F i m K r (engine p) (fun a d => Q a d ∧ Owns m L d) c := by
  have hsim := Program.Sat.simulate (f := id) (I := Owns m L)
    (K := Cell.engineHandler F i m r) (E := outside m)
    (fun o s answer t hs hst => ⟨hst, fun hg =>
      ⟨hg.2.lock.trans hs.lock, fun m' hne => (congrFun hg.2.active m').trans (hs.active m' hne)⟩⟩)
    (fun s t hs hst => ⟨hst.interference hs, Owns.stable hst hs⟩) ho hp
  refine Program.Sat.lift (J := managerGuarantee r i m K) (fun o s answer t h => h)
    (fun o s answer t _ hg => ?_) hsim
  obtain ⟨⟨hinv, hacc⟩, hs, ht⟩ := hg
  exact ⟨ht.rest hinv, hacc.toTraced, .same hacc.lock hacc.active⟩

/-! ## Locks and registrations -/

section Locks

variable {F : Faults} {i : SessionId} {m : ManagerId}

lemma Cell.handler_exec {o : ManagerOp FakeSnapshotData FakeIdentity}
    {answer : ManagerRet FakeSnapshotData FakeIdentity o}
    (h : Cell.handler F i m r o c answer d) (ho : o.target = some r) :
    ∃ now token fate, (fate = .proceed ∨ F o) ∧
      c.exec r ⟨i, m, now, token⟩ fate o = some (answer, d) := by
  unfold Cell.handler at h
  rwa [if_pos ho] at h

/-- Changing the lock or the registration of `m` is silent. -/
lemma Cell.silent_set (c : Cell) (lock : Option (ManagerId × SessionId))
    (active : ManagerId → Option LeaseId) : Silent c { c with lock, active } :=
  ⟨rfl, rfl, rfl, rfl, rfl, rfl, rfl, rfl, rfl⟩

/-- The cell with the lock taken. -/
lemma Rest.locked (h : Rest r (Others m) c) (hlock : c.lock = none) (L : LeaseId) :
    Owns m L { c with lock := some (m, L) } := by
  refine ⟨rfl, fun m' hne => ?_⟩
  cases ha : c.active m' with
  | none => rfl
  | some L' =>
      have := (h.active m' L' hne ha).1
      rw [hlock] at this
      exact absurd this (by simp)

/-- `acquire` takes a free lock in the name of the session, or changes nothing. -/
lemma manager_acquire {k : Except Error Unit → FakeManaged α} {Q : α → Cell → Prop}
    (hrest : Rest r (Others m) c)
    (herror : ∀ d error, Outside m c d → ManagerSat F i m K r (k (.error error)) Q d)
    (hok : ∀ d, Outside m c d → d.lock = none →
      ManagerSat F i m K r (k (.ok ())) Q { d with lock := some (m, i) }) :
    ManagerSat F i m K r (Managed.acquire r >>= k) Q c := by
  intro d hd answer e he
  obtain ⟨now, token, fate, -, h⟩ := Cell.handler_exec he rfl
  have hrestd := Rest.stable hd hrest
  have hsame : ∀ error, answer = .error error → e = d →
      managerGuarantee r i m K (.acquire r) d answer e ∧ ManagerSat F i m K r (k answer) Q e := by
    rintro error rfl rfl
    exact ⟨⟨hrestd, (Untouched.refl e).traced, .same rfl rfl⟩, herror e error hd⟩
  cases hlock : d.lock with
  | some holder =>
      cases fate <;> simp only [Cell.exec, hlock, Option.some.injEq, Prod.mk.injEq] at h <;>
        exact hsame _ h.1.symm h.2.symm
  | none =>
      cases fate <;> simp only [Cell.exec, hlock, Option.some.injEq, Prod.mk.injEq] at h
      · obtain ⟨rfl, rfl⟩ := h
        have hs := d.silent_set (some (m, i)) d.active
        refine ⟨⟨(hrestd.locked hlock i).rest (hrestd.inv.drift hs.drift), hs.traced,
          fun m' L hl _ => ?_, fun _ _ ha _ => .inl ha⟩, hok d hd hlock⟩
        rw [hlock] at hl
        exact absurd hl (by simp)
      · exact hsame _ h.1.symm h.2.symm
      · exact hsame _ h.1.symm h.2.symm

/-- `try_acquire` takes a free lock in the name of the session, or changes nothing. -/
lemma manager_tryAcquire {k : Except Error Bool → FakeManaged α} {Q : α → Cell → Prop}
    (hrest : Rest r (Others m) c)
    (hno : ∀ d answer, answer ≠ .ok true → Outside m c d → ManagerSat F i m K r (k answer) Q d)
    (hok : ∀ d, Outside m c d → d.lock = none →
      ManagerSat F i m K r (k (.ok true)) Q { d with lock := some (m, i) }) :
    ManagerSat F i m K r (Managed.tryAcquire r >>= k) Q c := by
  intro d hd answer e he
  obtain ⟨now, token, fate, -, h⟩ := Cell.handler_exec he rfl
  have hrestd := Rest.stable hd hrest
  have hsame : answer ≠ .ok true → e = d →
      managerGuarantee r i m K (.tryAcquire r) d answer e ∧
        ManagerSat F i m K r (k answer) Q e := by
    rintro ha rfl
    exact ⟨⟨hrestd, (Untouched.refl e).traced, .same rfl rfl⟩, hno e answer ha hd⟩
  cases hlock : d.lock with
  | some holder =>
      cases fate <;> simp only [Cell.exec, hlock, Option.some.injEq, Prod.mk.injEq] at h <;>
        exact hsame (by simp [← h.1]) h.2.symm
  | none =>
      cases fate <;> simp only [Cell.exec, hlock, Option.some.injEq, Prod.mk.injEq] at h
      · obtain ⟨rfl, rfl⟩ := h
        have hs := d.silent_set (some (m, i)) d.active
        refine ⟨⟨(hrestd.locked hlock i).rest (hrestd.inv.drift hs.drift), hs.traced,
          fun m' L hl _ => ?_, fun _ _ ha _ => .inl ha⟩, hok d hd hlock⟩
        rw [hlock] at hl
        exact absurd hl (by simp)
      · exact hsame (by simp [← h.1]) h.2.symm
      · exact hsame (by simp [← h.1]) h.2.symm

/-- `release` of the own lock. -/
lemma manager_release {k : Unit → FakeManaged α} {Q : α → Cell → Prop} (hinv : CellInv r c)
    (ho : Owns m K c)
    (hk : ∀ d, Outside m c d → ManagerSat F i m K r (k ()) Q { d with lock := none }) :
    ManagerSat F i m K r (Managed.release r >>= k) Q c := by
  intro d hd answer e he
  obtain ⟨now, token, fate, -, h⟩ := Cell.handler_exec he rfl
  simp only [Cell.exec, Option.some.injEq, Prod.mk.injEq] at h
  obtain ⟨-, rfl⟩ := h
  have hod := Owns.stable hd ho
  have hs := d.silent_set none d.active
  refine ⟨⟨⟨(hinv.drift hd.toDrift).drift hs.drift, fun m' L _ hl => absurd hl (by simp),
    fun m' L hne ha => ?_⟩, hs.traced, fun m' L hl hne => ?_, fun _ _ ha _ => .inl ha⟩, hk d hd⟩
  · rw [hod.active m' hne] at ha
    exact absurd ha (by simp)
  · rw [hod.lock, Option.some.injEq, Prod.mk.injEq] at hl
    exact absurd hl.2.symm hne

/-- Changing the registration of the own manager does not concern the others. -/
lemma Rest.register (h : Rest r (Others m) c) (entry : Option LeaseId) :
    Rest r (Others m) { c with active := Function.update c.active m entry } := by
  have hs := c.silent_set c.lock (Function.update c.active m entry)
  refine ⟨h.inv.drift hs.drift, fun m' L hne hl => ?_, fun m' L hne ha => ?_⟩
  · obtain ⟨live, hlive, hok⟩ := h.held m' L hne hl
    exact ⟨live, hlive, hok.drift hs.drift⟩
  · exact h.active m' L hne ((Function.update_of_ne hne _ _).symm.trans ha)

/-- `active.insert` and `active.remove` of the own manager: of the leases registered before, only
the own one or one that was given up may lose its place. -/
lemma manager_register {o : ManagerOp FakeSnapshotData FakeIdentity}
    {k : ManagerRet FakeSnapshotData FakeIdentity o → FakeManaged α} {Q : α → Cell → Prop}
    (entry : Option LeaseId) (ht : o.target = some r)
    (ho : ∀ (d : Cell) now token fate answer e,
      d.exec r ⟨i, m, now, token⟩ fate o = some (answer, e) →
        e = { d with active := Function.update d.active m entry })
    (hrest : Rest r (Others m) c)
    (hold : ∀ d L, Outside m c d → d.active m = some L → L ≠ K → entry = some L ∨ GivenUp L d)
    (hk : ∀ d answer, Outside m c d → ManagerSat F i m K r (k answer) Q
      { d with active := Function.update d.active m entry }) :
    ManagerSat F i m K r (.call o k) Q c := by
  intro d hd answer e he
  obtain ⟨now, token, fate, -, h⟩ := Cell.handler_exec he ht
  obtain rfl := ho d now token fate answer e h
  refine ⟨⟨(Rest.stable hd hrest).register entry, (d.silent_set d.lock _).traced,
    fun _ _ hl _ => hl, fun m' L ha hne => ?_⟩, hk d answer hd⟩
  by_cases hm : m' = m
  · subst hm
    exact (hold d L hd ha hne).imp_left fun he => (Function.update_self ..).trans he
  · exact .inl ((Function.update_of_ne hm _ _).trans ha)

/-- `active.insert` where nothing is registered. -/
lemma manager_activeInsert {k : Unit → FakeManaged α} {Q : α → Cell → Prop}
    (hrest : Rest r (Others m) c) (hnone : c.active m = none)
    (hk : ∀ d, Outside m c d → ManagerSat F i m K r (k ()) Q
      { d with active := Function.update d.active m (some L) }) :
    ManagerSat F i m K r (Managed.activeInsert ⟨L, r⟩ >>= k) Q c :=
  manager_register (some L) rfl (fun d now token fate answer e h => by
    simp only [Cell.exec, Option.some.injEq, Prod.mk.injEq] at h
    exact h.2.symm) hrest (fun d L hd ha => absurd ((hd.active.trans hnone).symm.trans ha) (by simp))
    fun d _ hd => hk d hd

/-- `active.remove` of the own lease, or of one that was given up. -/
lemma manager_activeRemove {k : Unit → FakeManaged α} {Q : α → Cell → Prop}
    (hrest : Rest r (Others m) c) (hold : ∀ L, c.active m = some L → L ≠ K → GivenUp L c)
    (hk : ∀ d, Outside m c d → ManagerSat F i m K r (k ()) Q
      { d with active := Function.update d.active m none }) :
    ManagerSat F i m K r (Managed.activeRemove r >>= k) Q c :=
  manager_register none rfl (fun d now token fate answer e h => by
    simp only [Cell.exec, Option.some.injEq, Prod.mk.injEq] at h
    exact h.2.symm) hrest
    (fun d L hd ha hne => .inr ((hold L (hd.active.symm.trans ha) hne).drift hd.toDrift))
    fun d _ hd => hk d hd

/-- `active.get` answers with the registration of the own manager. -/
lemma manager_activeGet {k : Option LeaseId → FakeManaged α} {Q : α → Cell → Prop}
    (hrest : Rest r (Others m) c)
    (hk : ∀ d, Outside m c d → ManagerSat F i m K r (k (d.active m)) Q d) :
    ManagerSat F i m K r (Managed.activeGet r >>= k) Q c := by
  intro d hd answer e he
  obtain ⟨now, token, fate, -, h⟩ := Cell.handler_exec he rfl
  simp only [Cell.exec, Option.some.injEq, Prod.mk.injEq] at h
  obtain ⟨rfl, rfl⟩ := h
  exact ⟨⟨Rest.stable hd hrest, (Untouched.refl d).traced, .same rfl rfl⟩, hk d hd⟩

end Locks

end Osdns
