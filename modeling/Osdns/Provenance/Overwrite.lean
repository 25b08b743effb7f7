import Osdns.Provenance.Operations
import Osdns.System.Execution

/-!
# No external overwrite

In every run of Cooperative managers, whatever fails and however sessions interleave, the state a
mutation replaces was captured by the apply of the lease the mutation is made for, or produced by
an earlier mutation for that lease.  A state that was written externally after the capture is
neither, so the engine never replaces it.

The history of a cell (`Cell.log`, newest event first) says where every state came from.  Memory
and journal hold evidence witnessed by the history, every session follows the discipline of
`sessionProvenance` for whatever comes to be witnessed, and each step keeps both.
-/

namespace Osdns

open Interaction

/-! ## Histories -/

/-- The lease captured the state or a mutation for it produced the state. -/
def Witnessed (log : List Event) (lease : LeaseId) (p : FakeSnapshotData) : Prop :=
  .captured lease p ∈ log ∨
    ∃ cause old time, cause.lease = lease ∧ .mutated cause old p time ∈ log

/-- Every mutation replaced a state that was evidence of its lease. -/
def Rightful : List Event → Prop
  | [] => True
  | .mutated cause old _ _ :: log => Witnessed log cause.lease old ∧ Rightful log
  | _ :: log => Rightful log

/-- The generation an event is about. -/
def Event.generation : Event → Nat
  | .captured _ p => p.generation
  | .mutated _ _ new _ => new.generation
  | .external (some new) => new.generation
  | .external none => 0

/-- Whether an event produced a generation of its own. -/
def Event.writes : Event → Bool
  | .captured _ _ => false
  | .mutated _ _ _ _ => true
  | .external new => new.isSome

/-- What a newer event says in view of an older one: a write makes a new generation, and no lease
captures twice. -/
structure Event.Follows (newer older : Event) : Prop where
  generation : newer.writes = true → older.generation < newer.generation
  once : ∀ lease p p', newer = .captured lease p → older ≠ .captured lease p'

/-- The history of a cell is in order. -/
structure Cell.InOrder (c : Cell) : Prop where
  dated : ∀ e ∈ c.log, e.generation ≤ c.generation
  ordered : c.log.Pairwise Event.Follows
  rightful : Rightful c.log

/-- What the snapshots of the leases in this cell's history may be presented for. -/
def Cell.origin (c : Cell) : Origin FakeSnapshotData := fun _ lease p => Witnessed c.log lease p

/-- Memory and journal hold witnessed evidence only. -/
structure Cell.Vouched (r : ResourceId) (c : Cell) : Prop extends Cell.InOrder c where
  live : ∀ K live, c.live K = some live → LiveFrom c.origin ⟨K, r⟩ live
  journal : ∀ K record, c.record K = some record → RecordFrom c.origin ⟨K, r⟩ record

section Histories

variable {log log' : List Event} {lease : LeaseId} {p : FakeSnapshotData}

lemma Witnessed.mono (h : Witnessed log lease p) (hs : log <:+ log') : Witnessed log' lease p := by
  rcases h with h | ⟨cause, old, time, hc, h⟩
  · exact .inl (hs.subset h)
  · exact .inr ⟨cause, old, time, hc, hs.subset h⟩

lemma Rightful.of_suffix (h : Rightful log') (hs : log <:+ log') : Rightful log := by
  induction log' with
  | nil => exact (List.suffix_nil.mp hs) ▸ h
  | cons e rest ih =>
      have hrest : Rightful rest := by
        cases e with
        | mutated cause old new time => exact h.2
        | captured lease p => exact h
        | external new => exact h
      rcases List.suffix_cons_iff.mp hs with rfl | hs
      · exact h
      · exact ih hrest hs

/-- Evidence is kept when the history grows. -/
lemma RecordFrom.mono {D I : Type} {P P' : Origin D} {ref : LiveRef} {record : JournalRecord D I}
    (h : RecordFrom P ref record) (hP : ∀ p, P ref.resource ref.lease p → P' ref.resource ref.lease p) :
    RecordFrom P' ref record :=
  ⟨h.leaseId, h.resource, h.identity, hP _ h.before, fun p hp => hP _ (h.applied p hp)⟩

lemma StateFrom.mono {D I : Type} {P P' : Origin D} {ref : LiveRef} {state : LiveState D I}
    (h : StateFrom P ref state) (hP : ∀ p, P ref.resource ref.lease p → P' ref.resource ref.lease p) :
    StateFrom P' ref state := by
  induction state with
  | committed => trivial
  | unmutated => trivial
  | prepared => trivial
  | verified mutation => exact hP _ h
  | compensating pending resume =>
      exact ⟨⟨fun p hp => hP _ (h.1.evidence p hp), hP _ h.1.target⟩, h.2.mono hP⟩
  | repair next ih => exact ih h

lemma LiveFrom.mono {D I : Type} {P P' : Origin D} {ref : LiveRef} {live : LiveRecord D I}
    (h : LiveFrom P ref live) (hP : ∀ p, P ref.resource ref.lease p → P' ref.resource ref.lease p) :
    LiveFrom P' ref live :=
  ⟨h.record.mono hP, h.state.mono hP⟩

end Histories

/-! ## Calls on one resource -/

section Calls

variable {r : ResourceId} {c d : Cell}

/-- What a step may do to the cell: add to the history, and keep memory and journal vouched. -/
structure Cell.Grows (r : ResourceId) (c d : Cell) : Prop where
  vouched : d.Vouched r
  log : c.log <:+ d.log

/-- A step that leaves history, memory and journal alone. -/
lemma Cell.Vouched.quiet (h : c.Vouched r) (hlog : d.log = c.log)
    (hgeneration : d.generation = c.generation) (hlive : d.live = c.live)
    (hjournal : d.journal = c.journal) : Cell.Grows r c d := by
  have horigin : d.origin = c.origin := by
    funext _ lease p
    rw [Cell.origin, Cell.origin, hlog]
  refine ⟨⟨⟨?_, ?_, ?_⟩, ?_, ?_⟩, ?_⟩
  · rw [hlog, hgeneration]
    exact h.dated
  · exact hlog ▸ h.ordered
  · exact hlog ▸ h.rightful
  · rw [hlive, horigin]
    exact h.live
  · intro K record hr
    rw [horigin]
    exact h.journal K record (by simpa only [Cell.record, hjournal] using hr)
  · exact hlog ▸ List.suffix_rfl

/-- A new event, with a generation of its own if it is a write. -/
lemma Cell.Vouched.append (h : c.Vouched r) {e : Event} (hlog : d.log = e :: c.log)
    (hlive : d.live = c.live) (hjournal : d.journal = c.journal)
    (hle : c.generation ≤ d.generation) (he : e.generation ≤ d.generation)
    (hnew : e.writes = true → c.generation < e.generation)
    (honce : ∀ lease p, e = .captured lease p → ∀ p', .captured lease p' ∉ c.log)
    (hright : ∀ cause old new time, e = .mutated cause old new time →
      Witnessed c.log cause.lease old) : Cell.Grows r c d := by
  have hgrows : c.log <:+ d.log := hlog ▸ List.suffix_cons e c.log
  have horigin : ∀ K p, c.origin r K p → d.origin r K p := fun K p (hp : Witnessed c.log K p) =>
    hp.mono hgrows
  refine ⟨⟨⟨?_, ?_, ?_⟩, fun K live hl => ?_, fun K record hr => ?_⟩, hgrows⟩
  · rw [hlog]
    rintro x hx
    rcases List.mem_cons.mp hx with rfl | hx
    · exact he
    · exact (h.dated x hx).trans hle
  · rw [hlog]
    refine List.pairwise_cons.mpr ⟨fun x hx => ⟨fun hw => ?_, fun lease p p' hc hx' => ?_⟩, h.ordered⟩
    · exact (h.dated x hx).trans_lt (hnew hw)
    · exact honce lease p hc p' (hx' ▸ hx)
  · rw [hlog]
    cases e with
    | mutated cause old new time => exact ⟨hright cause old new time rfl, h.rightful⟩
    | captured lease p => exact h.rightful
    | external new => exact h.rightful
  · exact (h.live K live (hlive ▸ hl)).mono (horigin K)
  · exact (h.journal K record (by simpa only [Cell.record, hjournal] using hr)).mono (horigin K)

/-- A mutation that replaces evidence of its lease. -/
lemma Cell.Vouched.mutate (h : c.Vouched r) {cause : Cause} {old : FakeState} (new : FakeState)
    (now : Instant) (hw : Witnessed c.log cause.lease ⟨old, c.generation⟩) :
    Cell.Grows r c (c.mutate cause old new now) ∧
      Witnessed (c.mutate cause old new now).log cause.lease ⟨new, c.generation + 1⟩ := by
  refine ⟨h.append rfl rfl rfl (Nat.le_succ _) (Nat.le_refl _) (fun _ => Nat.lt_succ_self _) nofun ?_,
    .inr ⟨cause, ⟨old, c.generation⟩, now, rfl, List.mem_cons_self ..⟩⟩
  rintro cause old new time ⟨⟩
  exact hw

/-- A record that is vouched for is published. -/
lemma Cell.Vouched.publish (h : c.Vouched r) {record : FakeRecord}
    {confirmed : LeaseId → Option FakeRecord}
    (hr : RecordFrom c.origin ⟨record.leaseId, r⟩ record) :
    Cell.Grows r c { c.publish record with confirmed } := by
  refine ⟨⟨⟨h.dated, h.ordered, h.rightful⟩, h.live, fun K x hx => ?_⟩, List.suffix_rfl⟩
  change (c.publish record).record K = some x at hx
  rw [Cell.record, Cell.publish] at hx
  by_cases hK : K = record.leaseId
  · subst hK
    rw [AList.lookup_insert, Option.some.injEq] at hx
    exact hx ▸ hr
  · rw [AList.lookup_insert_ne hK] at hx
    exact h.journal K x hx

lemma Cell.Vouched.erase (h : c.Vouched r) {lease : LeaseId} {removals : List (LeaseId × Removal)}
    {confirmed : LeaseId → Option FakeRecord} :
    Cell.Grows r c { c with removals, confirmed, journal := c.journal.erase lease } := by
  refine ⟨⟨⟨h.dated, h.ordered, h.rightful⟩, h.live, fun K x hx => ?_⟩, List.suffix_rfl⟩
  change (c.journal.erase lease).lookup K = some x at hx
  by_cases hK : K = lease
  · subst hK
    rw [AList.lookup_erase] at hx
    cases hx
  · rw [AList.lookup_erase_ne hK] at hx
    exact h.journal K x hx

lemma Cell.Vouched.setLive (h : c.Vouched r) {lease : LeaseId} {live : FakeLive}
    (hl : LiveFrom c.origin ⟨lease, r⟩ live) :
    Cell.Grows r c { c with live := Function.update c.live lease (some live) } := by
  refine ⟨⟨⟨h.dated, h.ordered, h.rightful⟩, fun K x hx => ?_, h.journal⟩, List.suffix_rfl⟩
  change Function.update c.live lease (some live) K = some x at hx
  by_cases hK : K = lease
  · subst hK
    rw [Function.update_self, Option.some.injEq] at hx
    exact hx ▸ hl
  · rw [Function.update_of_ne hK] at hx
    exact h.live K x hx

lemma interpretFull_eq_ok {p : FakeSnapshot} {data : FakeSnapshotData}
    (h : interpretFull p = .ok data) : p.data = data := by
  unfold interpretFull at h
  split at h
  · exact Except.ok.inj h
  · cases h

/-- A guarded mutation replaces what it expects, or nothing. -/
lemma Cell.applyGuarded_cases (c : Cell) (cause : Cause) (now : Instant) (fate : Fate)
    (expected : FakeSnapshot) (plan : NormalizedConfig) :
    ((c.applyGuarded r cause now fate expected plan).1.produced = none ∧
        (c.applyGuarded r cause now fate expected plan).2 = c) ∨
      ∃ old new, expected.data = ⟨old, c.generation⟩ ∧
        (c.applyGuarded r cause now fate expected plan).1.produced = some (c.produced r new) ∧
        (c.applyGuarded r cause now fate expected plan).2 = c.mutate cause old new now := by
  cases fate with
  | fail message => exact .inl ⟨rfl, rfl⟩
  | proceed =>
      cases hd : interpretFull expected with
      | error error => exact .inl (by simp [Cell.applyGuarded, hd, MutationAttempt.produced])
      | ok data =>
          cases hs : c.state with
          | none => exact .inl (by simp [Cell.applyGuarded, hd, hs, MutationAttempt.produced])
          | some state =>
              by_cases heq : data = ⟨state, c.generation⟩
              · refine .inr ⟨state, mergeState state plan, (interpretFull_eq_ok hd).trans heq, ?_⟩
                simp [Cell.applyGuarded, hd, hs, heq, MutationAttempt.produced]
              · exact .inl (by simp [Cell.applyGuarded, hd, hs, heq, MutationAttempt.produced])
  | failAfter message =>
      cases hd : interpretFull expected with
      | error error => exact .inl (by simp [Cell.applyGuarded, hd, MutationAttempt.produced])
      | ok data =>
          cases hs : c.state with
          | none => exact .inl (by simp [Cell.applyGuarded, hd, hs, MutationAttempt.produced])
          | some state =>
              by_cases heq : data = ⟨state, c.generation⟩
              · refine .inr ⟨state, mergeState state plan, (interpretFull_eq_ok hd).trans heq, ?_⟩
                simp [Cell.applyGuarded, hd, hs, heq, MutationAttempt.produced]
              · exact .inl (by simp [Cell.applyGuarded, hd, hs, heq, MutationAttempt.produced])

lemma Cell.restoreGuarded_cases (c : Cell) (cause : Cause) (now : Instant) (fate : Fate)
    (expected target : FakeSnapshot) :
    ((c.restoreGuarded r cause now fate expected target).1.produced = none ∧
        (c.restoreGuarded r cause now fate expected target).2 = c) ∨
      ∃ old new, expected.data = ⟨old, c.generation⟩ ∧
        (c.restoreGuarded r cause now fate expected target).1.produced = some (c.produced r new) ∧
        (c.restoreGuarded r cause now fate expected target).2 = c.mutate cause old new now := by
  cases fate with
  | fail message => exact .inl ⟨rfl, rfl⟩
  | failAfter message => exact .inl ⟨rfl, rfl⟩
  | proceed =>
      by_cases hr : expected.resource ≠ r ∨ target.resource ≠ r
      · exact .inl (by simp only [Cell.restoreGuarded, if_pos hr, MutationAttempt.produced, and_self])
      cases hd : interpretFull expected with
      | error error =>
          exact .inl (by simp only [Cell.restoreGuarded, if_neg hr, hd, MutationAttempt.produced,
            and_self])
      | ok data =>
          cases ht : interpretFull target with
          | error error =>
              exact .inl (by simp only [Cell.restoreGuarded, if_neg hr, hd, ht,
                MutationAttempt.produced, and_self])
          | ok new =>
              cases hs : c.state with
              | none =>
                  exact .inl (by simp only [Cell.restoreGuarded, if_neg hr, hd, ht, hs,
                    MutationAttempt.produced, and_self])
              | some state =>
                  by_cases heq : data = ⟨state, c.generation⟩
                  · refine .inr ⟨state, new.state, (interpretFull_eq_ok hd).trans heq, ?_⟩
                    simp only [Cell.restoreGuarded, if_neg hr, hd, ht, hs, if_pos heq,
                      MutationAttempt.produced, and_self]
                  · exact .inl (by simp only [Cell.restoreGuarded, if_neg hr, hd, ht, hs,
                      if_neg heq, MutationAttempt.produced, and_self])

/-- What a call of session `i` on this resource does: everything stays vouched for, the answer is
as the discipline expects it, and only the session itself captures. -/
structure Cell.Answered (r : ResourceId) (i : SessionId) (observed : Set ResourceId) (c d : Cell)
    (o : ManagerOp FakeSnapshotData FakeIdentity)
    (answer : ManagerRet FakeSnapshotData FakeIdentity o) : Prop where
  grows : Cell.Grows r c d
  expected : ∀ P : Origin FakeSnapshotData, (∀ K p, Witnessed d.log K p → P r K p) →
    (sessionProvenance i P).expects observed o answer
  captures : ∀ K p, .captured K p ∈ d.log → .captured K p ∈ c.log ∨
    K = i ∧ ∀ P : Origin FakeSnapshotData, r ∈ (sessionProvenance i P).next observed o answer

variable {i : SessionId} {observed : Set ResourceId}

/-- A call that leaves history, memory and journal alone, with any answer. -/
lemma Cell.Vouched.answered (h : c.Vouched r) {o : ManagerOp FakeSnapshotData FakeIdentity}
    {answer : ManagerRet FakeSnapshotData FakeIdentity o}
    (hexpected : ∀ P : Origin FakeSnapshotData, (∀ K p, Witnessed c.log K p → P r K p) →
      (sessionProvenance i P).expects observed o answer)
    (hlog : d.log = c.log) (hgeneration : d.generation = c.generation) (hlive : d.live = c.live)
    (hjournal : d.journal = c.journal) : Cell.Answered r i observed c d o answer :=
  ⟨h.quiet hlog hgeneration hlive hjournal, fun P hP => hexpected P (hlog ▸ hP),
    fun _ _ hp => .inl (hlog ▸ hp)⟩

/-- A guarded mutation that presents evidence of its lease. -/
lemma Cell.Vouched.guarded (h : c.Vouched r) {cause : Cause} {now : Instant}
    {expected : FakeSnapshot} {attempt : MutationAttempt FakeSnapshotData}
    (he : Witnessed c.log cause.lease expected.data)
    (hx : (attempt.produced = none ∧ d = c) ∨ ∃ old new, expected.data = ⟨old, c.generation⟩ ∧
      attempt.produced = some (c.produced r new) ∧ d = c.mutate cause old new now) :
    Cell.Grows r c d ∧ (∀ p, attempt.produced = some p → Witnessed d.log cause.lease p.data) ∧
      ∀ K p, .captured K p ∈ d.log → .captured K p ∈ c.log := by
  rcases hx with ⟨hp, rfl⟩ | ⟨old, new, hd, hp, rfl⟩
  · refine ⟨h.quiet rfl rfl rfl rfl, fun p hq => ?_, fun _ _ h => h⟩
    rw [hp] at hq
    cases hq
  · rw [hd] at he
    obtain ⟨grows, produced⟩ := h.mutate new now he
    refine ⟨grows, fun p hq => ?_, fun K p hc => ?_⟩
    · obtain rfl := Option.some.inj (hp.symm.trans hq)
      exact produced
    · rcases List.mem_cons.mp hc with hc | hc
      · cases hc
      · exact hc

lemma Cell.Vouched.execEngine (h : c.Vouched r) {ctx : Context} {fate : Fate}
    {o : EngineOp FakeSnapshotData FakeIdentity} {answer : EngineRet FakeSnapshotData FakeIdentity o}
    {P : Origin FakeSnapshotData} (hP : ∀ K p, P r K p → Witnessed c.log K p)
    (ht : o.target = some r) (ha : (provenance ctx.session P).allows observed o)
    (hO : ∀ p, .captured ctx.session p ∈ c.log → r ∈ observed)
    (hx : c.execEngine r ctx fate o = some (answer, d)) :
    Cell.Answered r ctx.session observed c d (.engine o) answer := by
  cases o with
  | fire point => cases ht
  | journalRecords => cases ht
  | newLeaseId => cases ht
  | resourceStatus site identity =>
      cases fate <;> simp only [Cell.execEngine, Option.some.injEq, Prod.mk.injEq] at hx <;>
        obtain ⟨-, rfl⟩ := hx <;> exact h.answered (fun _ _ => trivial) rfl rfl rfl rfl
  | readback site resource =>
      cases fate <;> simp only [Cell.execEngine, Option.some.injEq, Prod.mk.injEq] at hx <;>
        obtain ⟨-, rfl⟩ := hx <;> exact h.answered (fun _ _ => trivial) rfl rfl rfl rfl
  | capture resource =>
      cases fate <;> simp only [Cell.execEngine, Option.some.injEq, Prod.mk.injEq] at hx <;>
        obtain ⟨-, rfl⟩ := hx <;> exact h.answered (fun _ _ => trivial) rfl rfl rfl rfl
  | observe resource =>
      obtain rfl : resource = r := Option.some.inj ht
      have failed : ∀ error : Error, answer = .error error → d = c →
          Cell.Answered resource ctx.session observed c d (.engine (.observe resource)) answer := by
        rintro error rfl rfl
        exact h.answered (fun _ _ => trivial) rfl rfl rfl rfl
      cases hs : c.snapshot resource with
      | none =>
          cases fate <;> simp [Cell.execEngine, hs] at hx <;> exact failed _ hx.1.symm hx.2.symm
      | some p =>
          cases fate with
          | fail message | failAfter message =>
              simp only [Cell.execEngine, Option.some.injEq, Prod.mk.injEq] at hx
              exact failed _ hx.1.symm hx.2.symm
          | proceed =>
              simp only [Cell.execEngine, hs, Option.some.injEq, Prod.mk.injEq] at hx
              obtain ⟨rfl, rfl⟩ := hx
              have hg : p.data.generation = c.generation := by
                simp only [Cell.snapshot, Option.map_eq_some_iff] at hs
                obtain ⟨state, -, rfl⟩ := hs
                rfl
              refine ⟨h.append rfl rfl rfl le_rfl hg.le nofun (fun lease q he p' hp' => ?_) nofun,
                fun P' hP' => ⟨rfl, hP' _ _ (.inl (List.mem_cons_self ..))⟩, fun K q hq => ?_⟩
              · obtain ⟨rfl, -⟩ := Event.captured.inj he
                exact ha (hO p' hp')
              · rcases List.mem_cons.mp hq with hq | hq
                · exact .inr ⟨(Event.captured.inj hq).1, fun _ => Set.mem_insert ..⟩
                · exact .inl hq
  | applyGuarded cause resource expected plan =>
      obtain rfl : resource = r := Option.some.inj ht
      simp only [Cell.execEngine, Option.some.injEq] at hx
      have hcases := c.applyGuarded_cases (r := resource) cause ctx.now fate expected plan
      rw [hx] at hcases
      obtain ⟨grows, produced, captures⟩ := h.guarded (hP _ _ ha) hcases
      exact ⟨grows, fun P' hP' p hp => hP' _ _ (produced p hp), fun K p hp => .inl (captures K p hp)⟩
  | restoreGuarded cause resource expected target =>
      obtain rfl : resource = r := Option.some.inj ht
      simp only [Cell.execEngine, Option.some.injEq] at hx
      have hcases := c.restoreGuarded_cases (r := resource) cause ctx.now fate expected target
      rw [hx] at hcases
      obtain ⟨grows, produced, captures⟩ := h.guarded (hP _ _ ha) hcases
      exact ⟨grows, fun P' hP' p hp => hP' _ _ (produced p hp), fun K p hp => .inl (captures K p hp)⟩
  | apply cause resource plan => exact absurd ha id
  | restore cause resource snapshot => exact absurd ha id
  | journalWrite record =>
      obtain rfl : record.resource = r := Option.some.inj ht
      have hr : RecordFrom c.origin ⟨record.leaseId, record.resource⟩ record := ha.mono (hP _)
      cases fate <;>
        simp only [Cell.execEngine, Cell.journalWrite, Option.some.injEq, Prod.mk.injEq] at hx <;>
        obtain ⟨-, rfl⟩ := hx
      · exact ⟨h.publish hr, fun _ _ => trivial, fun _ _ hp => .inl hp⟩
      · exact h.answered (fun _ _ => trivial) rfl rfl rfl rfl
      · exact ⟨h.publish hr, fun _ _ => trivial, fun _ _ hp => .inl hp⟩
  | journalRemove lease resource removal =>
      cases fate <;>
        simp only [Cell.execEngine, Cell.journalRemove, Option.some.injEq, Prod.mk.injEq] at hx <;>
        obtain ⟨-, rfl⟩ := hx
      · exact ⟨h.erase, fun _ _ => trivial, fun _ _ hp => .inl hp⟩
      · exact h.answered (fun _ _ => trivial) rfl rfl rfl rfl
      · exact ⟨h.erase, fun _ _ => trivial, fun _ _ hp => .inl hp⟩
  | liveGet ref =>
      obtain rfl : ref.resource = r := Option.some.inj ht
      cases hl : c.live ref.lease with
      | none => simp [Cell.execEngine, hl] at hx
      | some live =>
          simp only [Cell.execEngine, hl, Option.map_some, Option.some.injEq, Prod.mk.injEq] at hx
          obtain ⟨rfl, rfl⟩ := hx
          exact h.answered (fun P' hP' => (h.live _ live hl).mono fun p hp => hP' _ p hp)
            rfl rfl rfl rfl
  | liveSet ref live =>
      obtain rfl : ref.resource = r := Option.some.inj ht
      simp only [Cell.execEngine, Option.some.injEq, Prod.mk.injEq] at hx
      obtain ⟨-, rfl⟩ := hx
      exact ⟨h.setLive (ha.mono fun p hp => hP _ p hp), fun _ _ => trivial, fun _ _ hp => .inl hp⟩

lemma Cell.Vouched.exec (h : c.Vouched r) {ctx : Context} {fate : Fate}
    {o : ManagerOp FakeSnapshotData FakeIdentity}
    {answer : ManagerRet FakeSnapshotData FakeIdentity o} {P : Origin FakeSnapshotData}
    (hP : ∀ K p, P r K p → Witnessed c.log K p) (ht : o.target = some r)
    (ha : (sessionProvenance ctx.session P).allows observed o)
    (hO : ∀ p, .captured ctx.session p ∈ c.log → r ∈ observed)
    (hx : c.exec r ctx fate o = some (answer, d)) :
    Cell.Answered r ctx.session observed c d o answer := by
  cases o with
  | engine o => exact h.execEngine hP ht ha hO hx
  | resolveResources scope plan => cases ht
  | acquire resource | tryAcquire resource =>
      cases fate <;> cases hl : c.lock <;>
        simp only [Cell.exec, hl, Option.some.injEq, Prod.mk.injEq] at hx <;>
        obtain ⟨-, rfl⟩ := hx <;> exact h.answered (fun _ _ => trivial) rfl rfl rfl rfl
  | tokenGet resource =>
      cases hk : c.token ctx.manager <;>
        simp only [Cell.exec, hk, Option.some.injEq, Prod.mk.injEq] at hx <;>
        obtain ⟨-, rfl⟩ := hx <;> exact h.answered (fun _ _ => trivial) rfl rfl rfl rfl
  | tokenLock | tokenUnlock | gateLock | gateUnlock => cases ht
  | sleep | enforceEnsure | enforceRelease | rescanEnforce => cases ht
  | _ =>
      simp only [Cell.exec, Option.some.injEq, Prod.mk.injEq] at hx
      obtain ⟨-, rfl⟩ := hx
      exact h.answered (fun _ _ => trivial) rfl rfl rfl rfl

end Calls

/-! ## Worlds -/

namespace World

variable {w w' : World} {i : SessionId} {m : ManagerId} {F : Faults} {observed : Set ResourceId}

/-- The evidence the histories witness. -/
def origin (w : World) : Origin FakeSnapshotData := fun r => Witnessed (w.cells r).log

/-- History, memory and journal of every resource are in order. -/
def Vouched (w : World) : Prop := ∀ r, (w.cells r).Vouched r

/-- A step in which every cell grows. -/
def Grows (w w' : World) : Prop := ∀ r, Cell.Grows r (w.cells r) (w'.cells r)

lemma Grows.vouched (h : w.Grows w') : w'.Vouched := fun r => (h r).vouched

lemma Grows.origin (h : w.Grows w') {r : ResourceId} {K : LeaseId} {p : FakeSnapshotData}
    (hp : w.origin r K p) : w'.origin r K p :=
  Witnessed.mono hp (h r).log

lemma Vouched.grows_of_eq (h : w.Vouched) (hc : w'.cells = w.cells) : w.Grows w' := by
  intro r
  rw [hc]
  exact (h r).quiet rfl rfl rfl rfl

/-- A step in which one cell grows. -/
lemma Vouched.grows_cell (h : w.Vouched) {r : ResourceId} {c : Cell}
    (hc : Cell.Grows r (w.cells r) c) : w.Grows (w.setCell r c) := by
  intro r'
  by_cases hr : r' = r
  · subst hr
    simpa [setCell] using hc
  · simpa [setCell, Function.update_of_ne hr] using (h r').quiet rfl rfl rfl rfl

/-- Every record of the journal is vouched for under its own name. -/
lemma Vouched.records (h : w.Vouched) : RecordsFrom w.origin w.records := by
  intro record member
  obtain ⟨r, -, listed⟩ := List.mem_flatMap.mp member
  obtain ⟨⟨K, x⟩, entry, rfl⟩ := List.mem_map.mp listed
  have stored : (w.cells r).record K = some x := AList.mem_lookup_iff.mpr entry
  have vouched := (h r).journal K x stored
  obtain rfl : x.leaseId = K := vouched.leaseId
  obtain rfl : x.resource = r := vouched.resource
  exact vouched.mono fun p hp => hp

/-- What a call of session `i` does. -/
structure Answered (i : SessionId) (observed : Set ResourceId) (w w' : World)
    (o : ManagerOp FakeSnapshotData FakeIdentity)
    (answer : ManagerRet FakeSnapshotData FakeIdentity o) : Prop where
  grows : w.Grows w'
  expected : ∀ P : Origin FakeSnapshotData, (∀ r K p, w'.origin r K p → P r K p) →
    (sessionProvenance i P).expects observed o answer
  captures : ∀ r K p, .captured K p ∈ (w'.cells r).log → .captured K p ∈ (w.cells r).log ∨
    K = i ∧ ∀ P : Origin FakeSnapshotData, r ∈ (sessionProvenance i P).next observed o answer

lemma Vouched.silent (h : w.Vouched) {o : ManagerOp FakeSnapshotData FakeIdentity}
    {answer : ManagerRet FakeSnapshotData FakeIdentity o} (hc : w'.cells = w.cells)
    (he : ∀ P : Origin FakeSnapshotData, (∀ r K p, w.origin r K p → P r K p) →
      (sessionProvenance i P).expects observed o answer) : Answered i observed w w' o answer := by
  refine ⟨h.grows_of_eq hc, fun P hP => he P fun r K p hp => hP r K p ?_, fun r K p hp => ?_⟩
  · rwa [World.origin, hc]
  · rw [hc] at hp
    exact .inl hp

lemma Vouched.execGlobal (h : w.Vouched) {fate : Fate}
    {o : ManagerOp FakeSnapshotData FakeIdentity}
    {answer : ManagerRet FakeSnapshotData FakeIdentity o}
    (hx : w.execGlobal i m fate o = some (answer, w')) : Answered i observed w w' o answer := by
  cases o with
  | engine o =>
      cases o with
      | fire point =>
          cases fate <;> simp only [World.execGlobal, Option.some.injEq, Prod.mk.injEq] at hx <;>
            obtain ⟨-, rfl⟩ := hx <;> exact h.silent rfl fun _ _ => trivial
      | newLeaseId =>
          cases fate <;> simp only [World.execGlobal, Option.some.injEq, Prod.mk.injEq] at hx <;>
            obtain ⟨rfl, rfl⟩ := hx <;> exact h.silent rfl fun _ _ => rfl
      | journalRecords =>
          cases fate with
          | fail message | failAfter message =>
              simp only [World.execGlobal, Option.some.injEq, Prod.mk.injEq] at hx
              obtain ⟨rfl, rfl⟩ := hx
              exact h.silent rfl fun _ _ => trivial
          | proceed =>
              simp only [World.execGlobal, Option.some.injEq, Prod.mk.injEq, readRecords] at hx
              obtain ⟨rfl, rfl⟩ := hx
              refine h.silent rfl fun P hP => ?_
              by_cases hn : (w.records.map (·.resource)).Nodup
              · simp only [if_pos hn]
                exact fun record hr => (h.records record hr).mono fun p hp => hP _ _ p hp
              · simp only [if_neg hn]
                exact trivial
      | _ => simp [World.execGlobal] at hx
  | resolveResources scope plan =>
      cases fate with
      | fail message | failAfter message =>
          simp only [World.execGlobal, Option.some.injEq, Prod.mk.injEq] at hx
          obtain ⟨rfl, rfl⟩ := hx
          exact h.silent rfl fun _ _ => trivial
      | proceed =>
          simp only [World.execGlobal, Option.some.injEq, Prod.mk.injEq] at hx
          obtain ⟨rfl, rfl⟩ := hx
          refine h.silent rfl fun _ _ => ?_
          cases hr : w.topology.resolve scope plan with
          | error error => trivial
          | ok resources => exact w.topology.nodup scope plan resources hr
  | tokenLock token =>
      simp only [World.execGlobal] at hx
      split at hx
      · cases hx
      · simp only [Option.some.injEq, Prod.mk.injEq] at hx
        obtain ⟨-, rfl⟩ := hx
        exact h.silent rfl fun _ _ => trivial
  | gateLock =>
      simp only [World.execGlobal] at hx
      split at hx
      · cases hx
      · simp only [Option.some.injEq, Prod.mk.injEq] at hx
        obtain ⟨-, rfl⟩ := hx
        exact h.silent rfl fun _ _ => trivial
  | tokenUnlock | gateUnlock | sleep | enforceEnsure | enforceRelease =>
      simp only [World.execGlobal, Option.some.injEq, Prod.mk.injEq] at hx
      obtain ⟨-, rfl⟩ := hx
      exact h.silent rfl fun _ _ => trivial
  | rescanEnforce =>
      simp only [World.execGlobal, Option.some.injEq, Prod.mk.injEq] at hx
      obtain ⟨-, rfl⟩ := hx
      split
      · -- Only pending sets are touched.
        have hlog : ∀ r, ((w.touchActive m).cells r).log = (w.cells r).log := by
          intro r
          unfold touchActive
          dsimp only
          split <;> rfl
        refine ⟨fun r => ?_, fun _ _ => trivial, fun r K p hp => .inl (hlog r ▸ hp)⟩
        unfold touchActive
        dsimp only
        split <;> exact (h r).quiet rfl rfl rfl rfl
      · exact h.silent rfl fun _ _ => trivial
  | _ => simp [World.execGlobal] at hx

/-- A call that follows the discipline for what is witnessed so far. -/
lemma Vouched.answered (h : w.Vouched) {o : ManagerOp FakeSnapshotData FakeIdentity}
    {answer : ManagerRet FakeSnapshotData FakeIdentity o}
    (ha : (sessionProvenance i w.origin).allows observed o)
    (hO : ∀ r p, .captured i p ∈ (w.cells r).log → r ∈ observed)
    (hx : World.handler F i m o w answer w') : Answered i observed w w' o answer := by
  obtain ⟨fate, -, hx⟩ := hx
  unfold World.exec at hx
  cases ht : o.target with
  | none =>
      simp only [ht] at hx
      exact h.execGlobal hx
  | some r =>
      simp only [ht, Option.map_eq_some_iff, Prod.mk.injEq] at hx
      obtain ⟨⟨answer', c⟩, hx, rfl, rfl⟩ := hx
      have done := (h r).exec (fun _ _ hp => hp) ht ha (hO r) hx
      have hcells : ((w.setCell r c).account o).cells = Function.update w.cells r c := by
        cases o with
        | engine o => cases o <;> rfl
        | _ => rfl
      refine ⟨fun r' => ?_, fun P hP => done.expected P fun K p hp => hP r K p ?_,
        fun r' K p hp => ?_⟩
      · rw [hcells]
        exact h.grows_cell done.grows r'
      · simpa [World.origin, hcells] using hp
      · rw [hcells] at hp
        by_cases hr : r' = r
        · subst hr
          rw [Function.update_self] at hp
          exact done.captures K p hp
        · rw [Function.update_of_ne hr] at hp
          exact .inl hp

lemma Vouched.environment (h : w.Vouched) (henv : Environment w w') :
    w.Grows w' ∧ ∀ r K p, .captured K p ∈ (w'.cells r).log → .captured K p ∈ (w.cells r).log := by
  cases henv with
  | retopology topology => exact ⟨h.grows_of_eq rfl, fun _ _ _ hp => hp⟩
  | tick duration => exact ⟨h.grows_of_eq rfl, fun _ _ _ hp => hp⟩
  | notify manager r =>
      refine ⟨h.grows_cell ((h r).quiet rfl rfl rfl rfl), fun r' K p hp => ?_⟩
      by_cases hr : r' = r
      · subst hr
        simpa [setCell] using hp
      · simpa [setCell, Function.update_of_ne hr] using hp
  | external r c hext =>
      suffices hc : Cell.Grows r (w.cells r) c ∧
          ∀ K p, .captured K p ∈ c.log → .captured K p ∈ (w.cells r).log by
        refine ⟨h.grows_cell hc.1, fun r' K p hp => ?_⟩
        by_cases hr : r' = r
        · subst hr
          exact hc.2 K p (by simpa [setCell] using hp)
        · simpa [setCell, Function.update_of_ne hr] using hp
      generalize hw : w.cells r = d at hext ⊢
      have hd : d.Vouched r := hw ▸ h r
      cases hext with
      | write state | replace state =>
          exact ⟨hd.append rfl rfl rfl (Nat.le_succ _) le_rfl (fun _ => Nat.lt_succ_self _) nofun
            nofun, fun K p hp => (List.mem_cons.mp hp).resolve_left nofun⟩
      | remove =>
          exact ⟨hd.append rfl rfl rfl le_rfl (Nat.zero_le _) nofun nofun nofun,
            fun K p hp => (List.mem_cons.mp hp).resolve_left nofun⟩
      | setAmbiguous ambiguous =>
          exact ⟨hd.quiet rfl rfl rfl rfl, fun K p hp => hp⟩

lemma Vouched.crash (h : w.Vouched) (m : ManagerId) : w.Grows (w.crash m) :=
  fun r => (h r).quiet rfl rfl rfl rfl

end World

/-! ## Runs -/

/-- The managers' backends compare and mutate. -/
lemma guarded_fakeManager {owner : String} {caps : Capabilities} {policy : ConflictPolicy} :
    (fakeManager owner caps policy).backend.Guarded := ⟨rfl, rfl⟩

namespace System

variable {S : Setup} {s t : System}

/-- A session observes each resource once, and follows the discipline for whatever comes to be
witnessed. -/
def Session.Vouched (w : World) (i : SessionId) (program : FakeManaged Outcome) : Prop :=
  ∃ observed : Set ResourceId, (∀ r p, .captured i p ∈ (w.cells r).log → r ∈ observed) ∧
    ∀ P : Origin FakeSnapshotData, (∀ r K p, w.origin r K p → P r K p) →
      program.Follows (sessionProvenance i P) (fun _ _ => True) observed

/-- What holds in every state of a run. -/
structure Vouched (s : System) : Prop where
  world : s.world.Vouched
  captured : ∀ r K p, .captured K p ∈ (s.world.cells r).log → K < s.next
  sessions : ∀ i session, s.sessions i = some session →
    Session.Vouched s.world i session.program

/-- A session that does nothing keeps its discipline when the world grows. -/
lemma Session.Vouched.grows {w w' : World} {i : SessionId} {program : FakeManaged Outcome}
    (h : Session.Vouched w i program) (hg : w.Grows w')
    (hc : ∀ r p, .captured i p ∈ (w'.cells r).log → .captured i p ∈ (w.cells r).log) :
    Session.Vouched w' i program := by
  obtain ⟨observed, hO, follows⟩ := h
  exact ⟨observed, fun r p hp => hO r p (hc r p hp),
    fun P hP => follows P fun r K p hp => hP r K p (hg.origin hp)⟩

lemma Vouched.init (h : Initial s) : s.Vouched := by
  have hcell : ∀ r, (s.world.cells r).log = [] ∧ (s.world.cells r).live = (fun _ => none) ∧
      (s.world.cells r).journal = ∅ := by
    intro r
    obtain ⟨state, generation, incarnation, ambiguous, hc⟩ := h.cells r
    rw [hc]
    exact ⟨rfl, rfl, rfl⟩
  refine ⟨fun r => ?_, fun r K p hp => ?_, fun i session hi => ?_⟩
  · obtain ⟨hlog, hlive, hjournal⟩ := hcell r
    refine ⟨⟨?_, ?_, ?_⟩, fun K live hl => ?_, fun K record hr => ?_⟩
    · simp [hlog]
    · simp [hlog]
    · rw [hlog]
      exact trivial
    · simp [hlive] at hl
    · simp [Cell.record, hjournal] at hr
  · simp [(hcell r).1] at hp
  · simp [h.sessions i] at hi

lemma Vouched.spawn (h : s.Vouched) {session : Session}
    (follows : ∀ P : Origin FakeSnapshotData,
      session.program.Follows (sessionProvenance s.next P) (fun _ _ => True) ∅) :
    (s.spawn session).Vouched := by
  refine ⟨h.world, fun r K p hp => Nat.lt_succ_of_lt (h.captured r K p hp), fun i a hi => ?_⟩
  obtain ⟨rfl, ha⟩ | ⟨-, hi⟩ := update_eq_some hi
  · obtain rfl := Option.some.inj ha
    exact ⟨∅, fun r p hp => absurd (h.captured r _ p hp) (lt_irrefl _), fun P _ => follows P⟩
  · exact h.sessions i a hi

lemma Vouched.step (h : s.Vouched) (hkeyed : s.Keyed) (hcoop : ∀ m, S.policy m = .cooperative)
    (hst : Step S s t) : t.Vouched := by
  cases hst with
  | start m request claims alone enforced free =>
      refine h.spawn fun P => follows_aloneEvidence guarded_fakeManager fun r hr => ?_
      simp [hcoop m] at enforced
      exact enforced r hr
  | startOn m request lease id onLease idle free =>
      have hs : System.Vouched { s with leases := Function.update s.leases id none } :=
        ⟨h.world, h.captured, h.sessions⟩
      exact hs.spawn fun P => follows_onLeaseEvidence guarded_fakeManager
  | call i session o k answer w running program claimed answered =>
      obtain ⟨observed, hO, follows⟩ := h.sessions i session running
      rw [program] at follows
      have done := h.world.answered (follows _ fun _ _ _ hp => hp).1 hO answered
      refine ⟨done.grows.vouched, fun r K p hp => ?_, fun j a hj => ?_⟩
      · rcases done.captures r K p hp with hp | ⟨rfl, -⟩
        · exact h.captured r K p hp
        · exact (hkeyed.started K session running).1
      · obtain ⟨rfl, ha⟩ | ⟨hne, hj⟩ := update_eq_some hj
        · obtain rfl := Option.some.inj ha
          refine ⟨(sessionProvenance j w.origin).next observed o answer, fun r p hp => ?_,
            fun P hP => ?_⟩
          · rcases done.captures r j p hp with hp | ⟨-, hr⟩
            · have hr := hO r p hp
              cases o with
              | engine o =>
                  cases o with
                  | observe resource => exact Set.mem_insert_of_mem _ hr
                  | _ => exact hr
              | _ => exact hr
            · exact hr w.origin
          · have next := (follows P fun r K p hp => hP r K p (done.grows.origin hp)).2 answer
              (done.expected P hP)
            exact next
        · refine (h.sessions j a hj).grows done.grows fun r p hp => ?_
          exact (done.captures r j p hp).resolve_right fun hji => hne hji.1
  | finish i session outcome running program =>
      refine ⟨h.world, h.captured, fun j a hj => h.sessions j a ?_⟩
      exact ((update_eq_some hj).resolve_left fun hji => by simp at hji).2
  | environment w henv =>
      obtain ⟨grows, captures⟩ := h.world.environment henv
      exact ⟨grows.vouched, fun r K p hp => h.captured r K p (captures r K p hp),
        fun i a hi => (h.sessions i a hi).grows grows fun r p hp => captures r i p hp⟩
  | crash m =>
      have grows := h.world.crash m
      refine ⟨grows.vouched, h.captured, fun i a hi => ?_⟩
      exact (h.sessions i a (Option.filter_eq_some_iff.mp hi).1).grows grows fun _ _ hp => hp

lemma Vouched.reachable (hcoop : ∀ m, S.policy m = .cooperative) (h : Reachable S s) :
    s.Vouched := by
  induction h with
  | init h => exact .init h
  | step hr hst ih => exact ih.step (Keyed.reachable hr) hcoop hst

end System

/-! ## No overwrite -/

section Overwrite

variable {log rest : List Event} {cause : Cause} {old new : FakeSnapshotData} {time : Instant}

/-- A witnessed state was not written externally after the lease captured its base. -/
lemma Witnessed.not_external {lease : LeaseId} {p base : FakeSnapshotData} {newer older : List Event}
    (ordered : (newer ++ .external (some p) :: older).Pairwise Event.Follows)
    (h : Witnessed (newer ++ .external (some p) :: older) lease p)
    (hbase : .captured lease base ∈ older) : False := by
  obtain ⟨-, hold, hcross⟩ := List.pairwise_append.mp ordered
  obtain ⟨hwrite, -⟩ := List.pairwise_cons.mp hold
  rcases h with h | ⟨cause, old, time, -, h⟩
  · -- The lease captured once, before the write, so it did not capture the written state.
    rcases List.mem_append.mp h with h | h
    · exact (hcross _ h _ (List.mem_cons_of_mem _ hbase)).once lease p base rfl rfl
    rcases List.mem_cons.mp h with h | h
    · cases h
    · exact lt_irrefl _ ((hwrite _ h).generation rfl)
  · -- The mutation would have made the generation of the external write.
    rcases List.mem_append.mp h with h | h
    · exact lt_irrefl _ ((hcross _ h _ (List.mem_cons_self ..)).generation rfl)
    rcases List.mem_cons.mp h with h | h
    · cases h
    · exact lt_irrefl _ ((hwrite _ h).generation rfl)

end Overwrite

/-- In every run of Cooperative managers, a mutation replaces a state that was captured by the
apply of its lease or produced by an earlier mutation for its lease, and never one written
externally after that capture. -/
theorem no_external_overwrite {S : Setup} (hcoop : ∀ m, S.policy m = .cooperative) {s : System}
    (h : System.Reachable S s) {r : ResourceId} {newer earlier : List Event} {cause : Cause}
    {old new : FakeSnapshotData} {time : Instant}
    (hlog : (s.world.cells r).log = newer ++ .mutated cause old new time :: earlier) :
    (.captured cause.lease old ∈ earlier ∨ ∃ cause' old' time', cause'.lease = cause.lease ∧
        .mutated cause' old' old time' ∈ earlier) ∧
      ∀ after before base, earlier = after ++ .external (some old) :: before →
        .captured cause.lease base ∉ before := by
  have vouched := (System.Vouched.reachable hcoop h).world r
  have suffix : (.mutated cause old new time :: earlier) <:+ (s.world.cells r).log :=
    hlog ▸ List.suffix_append ..
  obtain ⟨witnessed, -⟩ := vouched.rightful.of_suffix suffix
  refine ⟨witnessed, fun after before base he hbase => ?_⟩
  have ordered := (List.pairwise_cons.mp (vouched.ordered.sublist suffix.sublist)).2
  subst he
  exact witnessed.not_external ordered hbase

/-- Another program writes before an apply that asks for the default route, and once more after its
mutation. -/
def surroundedApply : List Move :=
  [.write .loopback (.configured [.v4 134744072] [] [] none),
    .start 0 (.apply ⟨.global, [], [], [], some true⟩), .run 0 15,
    .write .loopback (.configured [.v4 16843009] [] [] none)]

/-- After `surroundedApply` the history is an external write, a capture of what was written, a
mutation of that, and another external write, which no mutation has replaced. -/
theorem no_external_overwrite_surrounded : ∃ s : System,
    System.Reachable (System.unrestricted .cooperative) s ∧ ∃ base new later : FakeSnapshotData,
      (s.world.cells .loopback).log = [.external (some later), .mutated ⟨0, false⟩ base new 0,
        .captured 0 base, .external (some base)] ∧
        (.captured 0 base ∈ [Event.captured 0 base, .external (some base)] ∨
          ∃ cause' old' time', cause'.lease = 0 ∧ .mutated cause' old' base time' ∈
            [Event.captured 0 base, .external (some base)]) ∧
        ∀ after before base', [Event.captured 0 base, .external (some base)] =
            after ++ .external (some base) :: before →
          .captured 0 base' ∉ before := by
  have hrun : ((System.pristine (World.pristine (.single .loopback) .empty)).performAll
      (System.unrestricted .cooperative) surroundedApply).any (fun s =>
        (s.world.cells .loopback).log ==
          [.external (some ⟨.configured [.v4 16843009] [] [] none, 3⟩),
            .mutated ⟨0, false⟩ ⟨.configured [.v4 134744072] [] [] none, 1⟩
              ⟨.configured [] [] [] (some true), 2⟩ 0,
            .captured 0 ⟨.configured [.v4 134744072] [] [] none, 1⟩,
            .external (some ⟨.configured [.v4 134744072] [] [] none, 1⟩)]) = true := by
    decide +kernel
  obtain ⟨s, hs, hlog⟩ := (Option.any_eq_true _ _).mp hrun
  have hreach : System.Reachable (System.unrestricted .cooperative) s :=
    System.reachable_performAll (fun _ => trivial) (fun h => h) hs
  have hlog := beq_iff_eq.mp hlog
  have first : (s.world.cells .loopback).log = [_] ++ _ := hlog
  exact ⟨s, hreach, _, _, _, hlog, no_external_overwrite (fun _ => rfl) hreach first⟩

end Osdns
