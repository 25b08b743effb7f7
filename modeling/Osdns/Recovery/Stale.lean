import Mathlib.Data.List.Forall2
import Osdns.Recovery.Record

/-!
# Stale recovery

What `recoverStale` does with a readable journal: one outcome for each record, in the order of the
store, each outcome true of its own resource and independent of the others, and a second run that
finds every settled resource settled and every conflict again.
-/

namespace Osdns

open Interaction
open Interaction.Fallible (ask value attempt)

variable {F : Faults} {caps : Capabilities} {policy : ConflictPolicy} {owner : String}
variable {r : ResourceId} {L : LeaseId} {ctx : Context} {i : SessionId} {m : ManagerId}
variable {c d e : Cell} {x : FakeRecord} {w w' : World} {outcome : RecoveryOutcome}

/-! ## What a recovery does -/

/-- The native state, and what is recorded about it, is the same. -/
structure SameNative (c d : Cell) : Prop where
  state : d.state = c.state
  generation : d.generation = c.generation
  incarnation : d.incarnation = c.incarnation
  ambiguous : d.ambiguous = c.ambiguous
  writer : d.writer = c.writer
  log : d.log = c.log

/-- What an outcome says of the resource of its record. -/
def RecoveryOutcome.TrueOf (owner : String) (x : FakeRecord) (c d : Cell) :
    RecoveryOutcome → Prop
  | .foreignOwner resource other =>
      resource = x.resource ∧ other = x.owner ∧ x.owner ≠ owner ∧ d = c
  | .busy resource => resource = x.resource ∧ c.lock.isSome = true ∧ d = c
  | .restored resource lease =>
      resource = x.resource ∧ lease = x.leaseId ∧
        d.state = some x.before.data.state ∧ d.record x.leaseId = none
  | .journalCleared resource lease =>
      resource = x.resource ∧ lease = x.leaseId ∧ SameNative c d ∧ d.record x.leaseId = none
  | .gone resource lease =>
      resource = x.resource ∧ lease = x.leaseId ∧ SameNative c d ∧ d.record x.leaseId = none
  | .replaced resource lease =>
      resource = x.resource ∧ lease = x.leaseId ∧ SameNative c d ∧ d.record x.leaseId = none
  | .identityMismatch resource lease =>
      resource = x.resource ∧ lease = x.leaseId ∧ d = c ∧ d.record x.leaseId = some x
  | .externalConflict resource lease =>
      resource = x.resource ∧ lease = x.leaseId ∧ d = c ∧ d.record x.leaseId = some x
  | .failed resource lease _ => resource = x.resource ∧ lease = x.leaseId

/-- What the recovery of the record `x` makes of the cell of its resource. -/
structure RecordRecovered (owner : String) (x : FakeRecord) (c : Cell) (outcome : RecoveryOutcome)
    (d : Cell) : Prop where
  truthful : outcome.TrueOf owner x c d
  /-- A record of another owner is left alone. -/
  foreign : x.owner ≠ owner → d = c ∧ outcome = .foreignOwner x.resource x.owner
  /-- A record whose resource is locked is left alone. -/
  held : c.lock.isSome = true → d = c
  /-- The native state is replaced by the base only, and only when the published evidence proves
  it current. -/
  mutation : SameNative c d ∨ ∃ p now, x.applied = some p ∧ c.snapshot x.resource = some p ∧
    p.data.state ≠ x.before.data.state ∧
    SameNative (c.mutate ⟨x.leaseId, false⟩ p.data.state x.before.data.state now) d
  /-- What is left of the record keeps its base, and no other record of the resource changes. -/
  retained : ∀ y, d.record x.leaseId = some y →
    y.before = x.before ∧ Filed x.resource x.leaseId y
  others : ∀ K, K ≠ x.leaseId → d.record K = c.record K
  lock : d.lock = c.lock

/-! ## One record -/

lemma SameNative.refl (c : Cell) : SameNative c c := ⟨rfl, rfl, rfl, rfl, rfl, rfl⟩

/-- What a recovery leaves of the journal of its resource. -/
inductive LeavesRecord (r : ResourceId) (x : FakeRecord) (c d : Cell) : Prop
  | kept (journal : d.journal = c.journal)
  | erased (journal : d.journal = c.journal.erase x.leaseId)
  | revised (evidence : Option FakeSnapshot) (fake : x.identity.backend = .fake)
      (of : ∀ q, evidence = some q → q.Of r)
      (journal : d.journal = c.journal.insert x.leaseId
        { x with phase := .prepared, applied := evidence })

/-- Rewriting the record touches nothing but the journal. -/
lemma RewritesRecord.leaves (h : RewritesRecord r x c d) :
    SameNative c d ∧ d.lock = c.lock ∧ LeavesRecord r x c d := by
  rcases h with rfl | ⟨removal, rfl | rfl⟩ | ⟨evidence, hb, hof, confirmed, rfl | rfl⟩
  · exact ⟨.refl d, rfl, .kept rfl⟩
  · exact ⟨⟨rfl, rfl, rfl, rfl, rfl, rfl⟩, rfl, .kept rfl⟩
  · exact ⟨⟨rfl, rfl, rfl, rfl, rfl, rfl⟩, rfl, .erased rfl⟩
  · exact ⟨⟨rfl, rfl, rfl, rfl, rfl, rfl⟩, rfl, .kept rfl⟩
  · exact ⟨⟨rfl, rfl, rfl, rfl, rfl, rfl⟩, rfl, .revised evidence hb hof rfl⟩

lemma RestoresNative.journal (h : RestoresNative r x c d) :
    d.journal = c.journal ∧ d.lock = c.lock := by
  rcases h with rfl | ⟨p, now, -, -, -, rfl⟩ <;> exact ⟨rfl, rfl⟩

namespace Recovers

variable {result : Except Error RecoveryOutcome}

/-- Every recovery is a native step and then a journal step. -/
lemma steps (h : Recovers F r x c result d) :
    ∃ e, RestoresNative r x c e ∧ RewritesRecord r x e d := by
  cases h with
  | failed failure native journal => exact ⟨_, native, journal⟩
  | mismatch status => exact ⟨c, .inl rfl, .inl rfl⟩
  | gone status => exact ⟨c, .inl rfl, .inr (.inl ⟨_, .inr rfl⟩)⟩
  | replaced status => exact ⟨c, .inl rfl, .inr (.inl ⟨_, .inr rfl⟩)⟩
  | cleared status snapshot same => exact ⟨c, .inl rfl, .inr (.inl ⟨_, .inr rfl⟩)⟩
  | conflict status snapshot differs foreign => exact ⟨c, .inl rfl, .inl rfl⟩
  | restored status snapshot differs owned =>
      exact ⟨_, .inr ⟨_, _, owned, snapshot, differs, rfl⟩, .inr (.inl ⟨_, .inr rfl⟩)⟩

lemma leaves (h : Recovers F r x c result d) : d.lock = c.lock ∧ LeavesRecord r x c d := by
  obtain ⟨e, hnative, hrecord⟩ := h.steps
  obtain ⟨hj, hl⟩ := hnative.journal
  obtain ⟨-, hlock, hleft⟩ := hrecord.leaves
  refine ⟨hlock.trans hl, ?_⟩
  cases hleft with
  | kept journal => exact .kept (journal.trans hj)
  | erased journal => exact .erased (hj ▸ journal)
  | revised evidence fake of journal => exact .revised evidence fake of (hj ▸ journal)

lemma mutation (h : Recovers F r x c result d) :
    SameNative c d ∨ ∃ p now, x.applied = some p ∧ c.snapshot r = some p ∧
      p.data.state ≠ x.before.data.state ∧
      SameNative (c.mutate ⟨x.leaseId, false⟩ p.data.state x.before.data.state now) d := by
  obtain ⟨e, hnative, hrecord⟩ := h.steps
  have hsame := hrecord.leaves.1
  rcases hnative with rfl | ⟨p, now, hp, hc, hne, rfl⟩
  · exact .inl hsame
  · exact .inr ⟨p, now, hp, hc, hne, hsame⟩

end Recovers

namespace LeavesRecord

lemma others (h : LeavesRecord r x c d) {K : LeaseId} (hK : K ≠ x.leaseId) :
    d.record K = c.record K := by
  unfold Cell.record
  cases h with
  | kept journal => rw [journal]
  | erased journal => rw [journal, AList.lookup_erase_ne hK]
  | revised evidence fake of journal => rw [journal, AList.lookup_insert_ne hK]

lemma retained (h : LeavesRecord r x c d) (hx : Filed r x.leaseId x)
    (hrecord : c.record x.leaseId = some x) {y : FakeRecord} (hy : d.record x.leaseId = some y) :
    y.before = x.before ∧ Filed r x.leaseId y := by
  unfold Cell.record at hrecord hy
  cases h with
  | kept journal =>
      rw [journal, hrecord] at hy
      obtain rfl := Option.some.inj hy
      exact ⟨rfl, hx⟩
  | erased journal =>
      rw [journal, AList.lookup_erase] at hy
      exact absurd hy (by simp)
  | revised evidence fake of journal =>
      rw [journal, AList.lookup_insert] at hy
      obtain rfl := Option.some.inj hy
      have hb : x.backend = .fake := hx.identity.1.symm.trans fake
      exact ⟨rfl, hx.leaseId, hx.resource, hx.identity, hx.before,
        fun p hp => ⟨(of p hp).1.trans hb.symm, (of p hp).2⟩, fun ha => absurd ha (by simp)⟩

/-- A recovery adds no record. -/
lemma length_le (h : LeavesRecord r x c d) (hrecord : c.record x.leaseId = some x) :
    d.journal.entries.length ≤ c.journal.entries.length := by
  cases h with
  | kept journal => rw [journal]
  | erased journal =>
      rw [journal]
      exact List.Sublist.length_le (List.kerase_sublist _ _)
  | revised evidence fake of journal =>
      have hkey : x.leaseId ∈ c.journal.keys :=
        AList.lookup_isSome.mp (by rw [show c.journal.lookup x.leaseId = _ from hrecord]; rfl)
      have hlength : ∀ entries : List ((_ : LeaseId) × FakeRecord),
          entries.length = entries.keys.length := fun entries => (List.length_map _).symm
      have herase : (List.kerase x.leaseId c.journal.entries).length =
          c.journal.entries.length - 1 := by
        rw [hlength, hlength, List.keys_kerase]
        exact List.length_erase_of_mem hkey
      have hpos : 0 < c.journal.entries.length := by
        rw [hlength]
        exact List.length_pos_of_mem hkey
      rw [journal]
      simp only [AList.insert, List.kinsert, List.length_cons, herase]
      omega

end LeavesRecord

/-- The outcome a record gets from the result of its recovery. -/
def outcomeOf (x : FakeRecord) : Except Error RecoveryOutcome → RecoveryOutcome
  | .ok outcome => outcome
  | .error error => .failed x.resource x.leaseId error.text

/-- What `recoverStaleRecord` may answer and make of the cell of its record. -/
inductive RecoversStale (F : Faults) (owner : String) (x : FakeRecord) (c : Cell) :
    RecoveryOutcome → Cell → Prop
  | foreign (other : x.owner ≠ owner) :
      RecoversStale F owner x c (.foreignOwner x.resource x.owner) c
  | busy (own : x.owner = owner) (held : c.lock.isSome = true) :
      RecoversStale F owner x c (.busy x.resource) c
  | unlocked (own : x.owner = owner) (fault : ∃ o, F o) (detail : String) :
      RecoversStale F owner x c (.failed x.resource x.leaseId detail) c
  | recovered {result : Except Error RecoveryOutcome} {holder : ManagerId × SessionId} {e : Cell}
      (own : x.owner = owner) (free : c.lock = none)
      (recovers : Recovers F x.resource x { c with lock := some holder } result e) :
      RecoversStale F owner x c (outcomeOf x result) { e with lock := none }

lemma alone_recoverStaleRecord (hx : Filed r L x) :
    Alone r (recoverStaleRecord (fakeManager owner caps policy) x) := by
  have hr := hx.resource
  subst hr
  unfold recoverStaleRecord
  split
  · trivial
  refine ⟨.inl ⟨rfl, fun _ _ => rfl, fun c ctx => ?_⟩, fun answer _ => ?_⟩
  · cases hl : c.lock with
    | none => exact ⟨.ok true, { c with lock := some (ctx.manager, ctx.session) }, by
        simp only [Cell.exec, hl]⟩
    | some holder => exact ⟨.ok false, c, by simp only [Cell.exec, hl]⟩
  dsimp only [Program.done_bind]
  split
  · refine (local_recoverRecord rfl hx.identity.2).alone.bind fun result => ?_
    refine ⟨.inl ⟨rfl, fun _ _ => rfl, fun _ _ => ⟨_, _, rfl⟩⟩, fun _ _ => ?_⟩
    split <;> trivial
  all_goals trivial

/-- An engine program runs in a manager as it runs by itself. -/
lemma runs_engine {α : Type} {p : Engine FakeSnapshotData FakeIdentity α} {a : α} :
    (engine p).Runs (Cell.handlerAlone F ctx r) c a d ↔
      p.Runs (Cell.engineAlone F ctx r) c a d := by
  refine Program.runs_lift.trans (Iff.of_eq ?_)
  congr 1
  funext o s answer t
  exact propext ⟨fun ⟨_, h, he⟩ => he ▸ h, fun h => ⟨_, h, rfl⟩⟩

lemma runs_recoverStaleRecord (hx : Filed r L x)
    (h : (recoverStaleRecord (fakeManager owner caps policy) x).Runs
      (Cell.handlerAlone F ctx r) c outcome d) : RecoversStale F owner x c outcome d := by
  have hr := hx.resource
  subst hr
  unfold recoverStaleRecord at h
  split at h
  · rename_i howner
    obtain ⟨rfl, rfl⟩ := h
    exact .foreign howner
  rename_i howner
  have howner : x.owner = owner := not_not.mp howner
  obtain ⟨answer, u, ⟨fate, hF, ⟨-, hexec⟩ | ⟨hn, -⟩⟩, hk⟩ := h
  swap
  · exact absurd hn (by simp [ManagerOp.target])
  cases hl : c.lock with
  | some holder =>
      cases fate <;> simp only [Cell.exec, hl, Option.some.injEq, Prod.mk.injEq] at hexec <;>
        obtain ⟨rfl, rfl⟩ := hexec <;> obtain ⟨rfl, rfl⟩ := hk
      · exact .busy howner (by rw [hl]; rfl)
      · exact .unlocked howner ⟨_, by simpa using hF⟩ _
      · exact .unlocked howner ⟨_, by simpa using hF⟩ _
  | none =>
      cases fate <;> simp only [Cell.exec, hl, Option.some.injEq, Prod.mk.injEq] at hexec <;>
        obtain ⟨rfl, rfl⟩ := hexec
      · dsimp only [Program.done_bind] at hk
        obtain ⟨result, e, hresult, hrelease⟩ := Program.runs_bind.mp hk
        have hrecovers := runs_recoverRecord hx (runs_engine.mp hresult)
        obtain ⟨_, v, ⟨_, -, ⟨-, hexec⟩ | ⟨hn, -⟩⟩, hend⟩ := hrelease
        · simp only [Cell.exec, Option.some.injEq, Prod.mk.injEq] at hexec
          obtain ⟨-, rfl⟩ := hexec
          have hrecovered := RecoversStale.recovered howner hl hrecovers
          cases result with
          | ok outcome =>
              obtain ⟨rfl, rfl⟩ := hend
              exact hrecovered
          | error error =>
              obtain ⟨rfl, rfl⟩ := hend
              exact hrecovered
        · exact absurd hn (by simp [ManagerOp.target])
      · obtain ⟨rfl, rfl⟩ := hk
        exact .unlocked howner ⟨_, by simpa using hF⟩ _
      · obtain ⟨rfl, rfl⟩ := hk
        exact .unlocked howner ⟨_, by simpa using hF⟩ _

/-- The recovery of a record of the store meets its specification. -/
lemma RecoversStale.recordRecovered (hx : Filed x.resource x.leaseId x)
    (hrecord : c.record x.leaseId = some x) (h : RecoversStale F owner x c outcome d) :
    RecordRecovered owner x c outcome d := by
  have hidle : ∀ {outcome : RecoveryOutcome}, outcome.TrueOf owner x c c →
      (x.owner ≠ owner → outcome = .foreignOwner x.resource x.owner) →
      RecordRecovered owner x c outcome c := fun htrue hforeign =>
    { truthful := htrue
      foreign := fun hne => ⟨rfl, hforeign hne⟩
      held := fun _ => rfl
      mutation := .inl (.refl c)
      retained := fun y hy => by
        obtain rfl := Option.some.inj (hrecord.symm.trans hy)
        exact ⟨rfl, hx⟩
      others := fun _ _ => rfl
      lock := rfl }
  cases h with
  | foreign other => exact hidle ⟨rfl, rfl, other, rfl⟩ fun _ => rfl
  | busy own held => exact hidle ⟨rfl, held, rfl⟩ fun hne => absurd own hne
  | unlocked own fault detail => exact hidle ⟨rfl, rfl⟩ fun hne => absurd own hne
  | @recovered result holder e own free recovers =>
      obtain ⟨-, hleaves⟩ := recovers.leaves
      refine
        { truthful := ?_
          foreign := fun hne => absurd own hne
          held := fun hl => absurd hl (by rw [free]; simp)
          mutation := ?_
          retained := fun y hy => hleaves.retained hx hrecord hy
          others := fun K hK => hleaves.others hK
          lock := free.symm }
      · have hunlocked : ∀ {c : Cell}, c.lock = none →
            { { c with lock := some holder } with lock := none } = c := by
          rintro ⟨⟩ rfl
          rfl
        cases recovers with
        | failed failure native journal => exact ⟨rfl, rfl⟩
        | mismatch status => exact ⟨rfl, rfl, hunlocked free, hrecord⟩
        | gone status =>
            exact ⟨rfl, rfl, ⟨rfl, rfl, rfl, rfl, rfl, rfl⟩, AList.lookup_erase ..⟩
        | replaced status =>
            exact ⟨rfl, rfl, ⟨rfl, rfl, rfl, rfl, rfl, rfl⟩, AList.lookup_erase ..⟩
        | cleared status snapshot same =>
            exact ⟨rfl, rfl, ⟨rfl, rfl, rfl, rfl, rfl, rfl⟩, AList.lookup_erase ..⟩
        | conflict status snapshot differs foreign => exact ⟨rfl, rfl, hunlocked free, hrecord⟩
        | restored status snapshot differs owned =>
            exact ⟨rfl, rfl, rfl, AList.lookup_erase ..⟩
      · rcases recovers.mutation with hs | ⟨p, now, hp, hc, hne, hs⟩
        · exact .inl ⟨hs.state, hs.generation, hs.incarnation, hs.ambiguous, hs.writer, hs.log⟩
        · exact .inr ⟨p, now, hp, hc, hne,
            ⟨hs.state, hs.generation, hs.incarnation, hs.ambiguous, hs.writer, hs.log⟩⟩

/-- Recovery adds no record. -/
lemma RecoversStale.length_le (hrecord : c.record x.leaseId = some x)
    (h : RecoversStale F owner x c outcome d) :
    d.journal.entries.length ≤ c.journal.entries.length := by
  cases h with
  | recovered own free recovers => exact recovers.leaves.2.length_le hrecord
  | _ => exact le_rfl

/-- The conflict of a record that is kept. -/
def RecoveryOutcome.Refuses (outcome : RecoveryOutcome) (x : FakeRecord) : Prop :=
  outcome = .externalConflict x.resource x.leaseId ∨
    outcome = .identityMismatch x.resource x.leaseId

/-- A conflict is found again, as long as nothing fails. -/
lemma RecoversStale.again {outcome' : RecoveryOutcome} (ho : outcome.Refuses x)
    (h : RecoversStale F owner x c outcome d)
    (h' : RecoversStale (fun _ => False) owner x c outcome' e) : outcome' = outcome := by
  have hnever : ∀ {status : ResourceStatus},
      c.resourceStatus x.identity = .ok status →
      ¬ ((∃ _ : ManagerOp FakeSnapshotData FakeIdentity, False) ∨
        ∃ error, c.resourceStatus x.identity = .error error) := by
    rintro status hs (⟨_, hfalse⟩ | ⟨error, he⟩)
    · exact hfalse
    · exact absurd (hs.symm.trans he) (by simp)
  cases h with
  | foreign other => rcases ho with ho | ho <;> exact absurd ho (by simp)
  | busy own held => rcases ho with ho | ho <;> exact absurd ho (by simp)
  | unlocked own fault detail => rcases ho with ho | ho <;> exact absurd ho (by simp)
  | recovered own free recovers =>
      cases h' with
      | foreign other => exact absurd own other
      | busy own held => exact absurd held (by rw [free]; simp)
      | unlocked own fault detail => exact fault.elim fun _ hfalse => hfalse.elim
      | recovered _ _ recovers' =>
          cases recovers with
          | mismatch status =>
              cases recovers' with
              | failed failure native journal => exact absurd failure (hnever status)
              | mismatch _ => rfl
              | gone status' => exact absurd (status.symm.trans status') (by simp)
              | replaced status' => exact absurd (status.symm.trans status') (by simp)
              | cleared status' _ _ => exact absurd (status.symm.trans status') (by simp)
              | conflict status' _ _ _ => exact absurd (status.symm.trans status') (by simp)
              | restored status' _ _ _ => exact absurd (status.symm.trans status') (by simp)
          | conflict status snapshot differs foreign =>
              cases recovers' with
              | failed failure native journal => exact absurd failure (hnever status)
              | mismatch status' => exact absurd (status.symm.trans status') (by simp)
              | gone status' => exact absurd (status.symm.trans status') (by simp)
              | replaced status' => exact absurd (status.symm.trans status') (by simp)
              | cleared _ snapshot' same =>
                  obtain rfl := Option.some.inj (snapshot.symm.trans snapshot')
                  exact absurd same differs
              | conflict _ _ _ _ => rfl
              | restored _ snapshot' _ owned =>
                  obtain rfl := Option.some.inj (snapshot.symm.trans snapshot')
                  exact absurd owned foreign
          | _ => rcases ho with ho | ho <;> exact absurd ho (by simp [outcomeOf])

/-! ## All records -/

/-- Each record of a list by itself, on the cell of its resource. -/
def RunsEach (F : Faults) (owner : String) (caps : Capabilities) (policy : ConflictPolicy)
    (ctx : Context) (w w' : World) : List FakeRecord → List RecoveryOutcome → Prop :=
  List.Forall₂ fun x outcome =>
    (recoverStaleRecord (fakeManager owner caps policy) x).Runs
      (Cell.handlerAlone F ctx x.resource) (w.cells x.resource) outcome (w'.cells x.resource)

lemma RunsEach.congr {u : World} {xs : List FakeRecord} {outcomes : List RecoveryOutcome}
    (hcells : ∀ x ∈ xs, u.cells x.resource = w.cells x.resource)
    (h : RunsEach F owner caps policy ctx u w' xs outcomes) :
    RunsEach F owner caps policy ctx w w' xs outcomes := by
  refine ((List.forall₂_and_left _ _).mpr ⟨hcells, h⟩).imp fun x outcome hx => ?_
  rw [← hx.1]
  exact hx.2

/-- Recovering records of different resources is recovering each of them by itself. -/
lemma runs_recoverStaleRecords {xs : List FakeRecord} {outcomes : List RecoveryOutcome}
    (hnodup : (xs.map (·.resource)).Nodup)
    (hxs : ∀ x ∈ xs, Filed x.resource x.leaseId x ∧ x.resource ∈ w.names) :
    (recoverStaleRecords (fakeManager owner caps policy) xs).Runs (World.handler F i m) w
        outcomes w' ↔
      RunsEach F owner caps policy (w.context i m) w w' xs outcomes ∧
        (∀ r, r ∉ xs.map (·.resource) → w'.cells r = w.cells r) ∧
        w' = { w with cells := w'.cells } := by
  induction xs generalizing w outcomes with
  | nil =>
      constructor
      · rintro ⟨rfl, rfl⟩
        exact ⟨.nil, fun _ _ => rfl, rfl⟩
      · rintro ⟨heach, hcells, hw⟩
        obtain rfl := List.forall₂_nil_left_iff.mp heach
        refine ⟨rfl, ?_⟩
        rw [hw, show w'.cells = w.cells from funext fun r => hcells r (by simp)]
  | cons x xs ih =>
      obtain ⟨hhead, htail⟩ := List.nodup_cons.mp hnodup
      obtain ⟨hfiled, hname⟩ := hxs x (List.mem_cons_self ..)
      have hrest : ∀ y ∈ xs, Filed y.resource y.leaseId y ∧ y.resource ∈ w.names :=
        fun y hy => hxs y (List.mem_cons_of_mem x hy)
      -- The later records do not see what becomes of the first one's cell.
      have hsame : ∀ (c : Cell), ∀ y ∈ xs, (w.setCell x.resource c).cells y.resource =
          w.cells y.resource := fun c y hy => World.setCell_cells_of_ne fun h =>
        hhead (List.mem_map.mpr ⟨y, hy, h⟩)
      constructor
      · intro h
        obtain ⟨outcome, u, hrun, hk⟩ := Program.runs_bind.mp h
        obtain ⟨os, v, hos, rfl, rfl⟩ := Program.runs_bind.mp hk
        obtain ⟨c, hc, rfl⟩ := (World.runs_alone (alone_recoverStaleRecord hfiled) hname).mp hrun
        obtain ⟨heach, hcells, hw⟩ := (ih (w := w.setCell x.resource c) htail hrest).mp hos
        have hx : w'.cells x.resource = c :=
          (hcells _ hhead).trans World.setCell_cells_self
        refine ⟨.cons (hx ▸ hc) (heach.congr (hsame c)), fun r hr => ?_, hw⟩
        rw [List.map_cons, List.mem_cons, not_or] at hr
        exact (hcells r hr.2).trans (World.setCell_cells_of_ne hr.1)
      · rintro ⟨heach, hcells, hw⟩
        obtain ⟨outcome, os, hrun, hos, rfl⟩ := List.forall₂_cons_left_iff.mp heach
        refine Program.runs_bind.mpr ⟨outcome, w.setCell x.resource (w'.cells x.resource),
          (World.runs_alone (alone_recoverStaleRecord hfiled) hname).mpr ⟨_, hrun, rfl⟩, ?_⟩
        refine Program.runs_bind.mpr ⟨os, w', (ih (w := w.setCell x.resource (w'.cells x.resource))
          htail hrest).mpr ⟨?_, fun r hr => ?_, hw⟩, rfl, rfl⟩
        · exact RunsEach.congr (fun y hy => (hsame _ y hy).symm) hos
        · by_cases h : r = x.resource
          · subst h
            exact World.setCell_cells_self.symm
          · rw [World.setCell_cells_of_ne h]
            exact hcells r (by rw [List.map_cons, List.mem_cons, not_or]; exact ⟨h, hr⟩)

end Osdns
