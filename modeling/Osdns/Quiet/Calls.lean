import Osdns.Recovery.Record
import Osdns.Serial.Elsewhere
import Osdns.Serial.Runs

/-!
# Programs that nobody interferes with

While others only keep their books, the native state, the journal and the live records of a
resource change by the program's own calls alone.  The rules below judge an engine program call by
call in that setting; unlike the rules of `Serial/Mutation.lean` they say what the cell is after
each call, and unlike those of `Faultless/Calls.lean` they allow calls to fail.

`World.Labelled.runs_cell` is what they are for: a run of a program in the world is judged one
resource at a time.
-/

namespace Osdns

open Interaction
open Interaction.Fallible (ask value attempt)
open Engine

variable {r : ResourceId} {L : LeaseId} {c d e : Cell}
variable {F : Faults} {i : SessionId} {m : ManagerId} {caps : Capabilities} {α β : Type}

/-! ## Bookkeeping -/

/-- Native state, journal and live records are the same. -/
structure Alike (c d : Cell) : Prop extends Silent c d where
  incarnation : d.incarnation = c.incarnation
  ambiguous : d.ambiguous = c.ambiguous

lemma Alike.refl (c : Cell) : Alike c c :=
  ⟨⟨rfl, rfl, rfl, rfl, rfl, rfl, rfl, rfl, rfl⟩, rfl, rfl⟩

lemma Alike.trans (h₁ : Alike c d) (h₂ : Alike d e) : Alike c e where
  journal := h₂.journal.trans h₁.journal
  live := h₂.live.trans h₁.live
  base := h₂.base.trans h₁.base
  removals := h₂.removals.trans h₁.removals
  confirmed := h₂.confirmed.trans h₁.confirmed
  state := h₂.state.trans h₁.state
  generation := h₂.generation.trans h₁.generation
  writer := h₂.writer.trans h₁.writer
  log := h₂.log.trans h₁.log
  incarnation := h₂.incarnation.trans h₁.incarnation
  ambiguous := h₂.ambiguous.trans h₁.ambiguous

lemma Alike.status (h : Alike c d) (identity : FakeResourceIdentity) :
    d.resourceStatus identity = c.resourceStatus identity := by
  simp only [Cell.resourceStatus, h.state, h.incarnation, h.ambiguous]

lemma Alike.snapshot (h : Alike c d) : d.snapshot r = c.snapshot r := by
  simp only [Cell.snapshot, h.state, h.generation]

lemma Alike.record (h : Alike c d) : d.record L = c.record L := by
  simp only [Cell.record, h.journal]

lemma Alike.pending (h : d = { c with pending := d.pending }) : Alike c d := by
  rw [h]
  exact ⟨⟨rfl, rfl, rfl, rfl, rfl, rfl, rfl, rfl, rfl⟩, rfl, rfl⟩

/-- What others may do who only keep their books. -/
def bookkeeping : Rely Cell where
  rel := Alike
  refl := .refl
  trans := .trans

/-- `Program.Sat` for engine programs on the cell of `r` that nobody interferes with. -/
abbrev EngineQuiet (F : Faults) (i : SessionId) (m : ManagerId) (r : ResourceId)
    (p : Engine FakeSnapshotData FakeIdentity α) (Q : α → Cell → Prop) (c : Cell) : Prop :=
  p.Sat (Cell.engineHandler F i m r) bookkeeping (fun _ _ _ _ => True) Q c

/-! ## Single calls -/

section Rules

variable {Q : α → Cell → Prop}

lemma quiet_pure {a : α} (hQ : Stable bookkeeping (Q a)) (hc : Q a c) :
    EngineQuiet F i m r (pure a) Q c := fun _ hd => hQ hd hc

lemma quiet_bind {p : Engine FakeSnapshotData FakeIdentity α}
    {k : α → Engine FakeSnapshotData FakeIdentity β} {M : α → Cell → Prop} {Q : β → Cell → Prop}
    (hp : EngineQuiet F i m r p M c) (hk : ∀ a d, M a d → EngineQuiet F i m r (k a) Q d) :
    EngineQuiet F i m r (p >>= k) Q c :=
  Program.Sat.seq hp hk

lemma quiet_status {site : Site} {identity : FakeResourceIdentity}
    {k : Except Error ResourceStatus → Engine FakeSnapshotData FakeIdentity α}
    (hr : identity.resource = r)
    (hk : ∀ d answer, Alike c d → (answer = c.resourceStatus identity ∨
      (∃ error, answer = .error error) ∧ F (.engine (.resourceStatus site identity))) →
        EngineQuiet F i m r (k answer) Q d) :
    EngineQuiet F i m r (resourceStatus site identity >>= k) Q c := by
  intro d hd answer e he
  obtain ⟨rfl, hanswer⟩ := Cell.engineHandler_status he hr
  refine ⟨trivial, hk e answer hd ?_⟩
  rw [Alike.status hd] at hanswer
  exact hanswer.imp_right fun ⟨⟨message, h⟩, hF⟩ => ⟨⟨_, h⟩, hF⟩

lemma quiet_readback {site : Site} {resource : ResourceId}
    {k : Except Error FakeSnapshot → Engine FakeSnapshotData FakeIdentity α}
    (hr : resource = r)
    (hk : ∀ d answer, Alike c d → ((∃ p, c.snapshot r = some p ∧ answer = .ok p) ∨
      (∃ error, answer = .error error) ∧
        (c.snapshot r = none ∨ F (.engine (.readback site r)))) →
        EngineQuiet F i m r (k answer) Q d) :
    EngineQuiet F i m r (readback site resource >>= k) Q c := by
  subst hr
  intro d hd answer e he
  obtain ⟨rfl, hanswer⟩ := Cell.engineHandler_readback he
  refine ⟨trivial, hk e answer hd ?_⟩
  rcases hanswer with hanswer | ⟨⟨message, h⟩, hF⟩
  · unfold Cell.read at hanswer
    rw [Alike.snapshot hd] at hanswer
    cases hs : c.snapshot resource with
    | some p => exact .inl ⟨p, rfl, by rw [hanswer, hs]⟩
    | none => exact .inr ⟨⟨_, by rw [hanswer, hs]⟩, .inl rfl⟩
  · exact .inr ⟨⟨_, h⟩, .inr hF⟩

lemma quiet_fire {point : TxPoint} {k : Except Error Unit → Engine FakeSnapshotData FakeIdentity α}
    (hk : ∀ d answer, Alike c d → (answer = .ok () ∨ F (.engine (.fire point))) →
      EngineQuiet F i m r (k answer) Q d) :
    EngineQuiet F i m r (fire point >>= k) Q c := by
  intro d hd answer e he
  obtain ⟨hpending, hanswer⟩ := Cell.engineHandler_fire he
  exact ⟨trivial, hk e answer (.trans hd (.pending hpending)) hanswer⟩

lemma quiet_liveGet {ref : LiveRef} {live : FakeLive}
    {k : FakeLive → Engine FakeSnapshotData FakeIdentity α} (href : ref = ⟨L, r⟩)
    (hlive : c.live L = some live) (hk : ∀ d, Alike c d → EngineQuiet F i m r (k live) Q d) :
    EngineQuiet F i m r (liveGet ref >>= k) Q c := by
  subst href
  intro d hd answer e he
  obtain ⟨rfl, hanswer⟩ := Cell.engineHandler_liveGet he
  rw [hd.live, hlive] at hanswer
  obtain rfl := Option.some.inj hanswer
  exact ⟨trivial, hk e hd⟩

lemma quiet_liveSet {ref : LiveRef} {live : FakeLive}
    {k : Unit → Engine FakeSnapshotData FakeIdentity α} (href : ref = ⟨L, r⟩)
    (hk : ∀ d, Alike c d → EngineQuiet F i m r (k ()) Q (d.setLive L live)) :
    EngineQuiet F i m r (liveSet ref live >>= k) Q c := by
  subst href
  intro d hd answer e he
  obtain rfl := Cell.engineHandler_liveSet he
  exact ⟨trivial, hk d hd⟩

/-- Nothing but the journal is different. -/
structure Rewritten (L : LeaseId) (record : FakeRecord) (success : Prop) (c d : Cell) : Prop where
  live : d.live = c.live
  snapshot : ∀ r, d.snapshot r = c.snapshot r
  status : ∀ identity, d.resourceStatus identity = c.resourceStatus identity
  record : success → d.record L = some record

lemma quiet_journalWrite {record : FakeRecord}
    {k : Except Error Unit → Engine FakeSnapshotData FakeIdentity α} (hon : record.On r L)
    (hk : ∀ d answer, Rewritten L record (answer = .ok ()) c d →
      EngineQuiet F i m r (k answer) Q d) :
    EngineQuiet F i m r (journalWrite record >>= k) Q c := by
  intro d hd answer e he
  have hsame : ∀ journal confirmed, { d with journal, confirmed }.live = c.live ∧
      (∀ r, { d with journal, confirmed }.snapshot r = c.snapshot r) ∧
      ∀ identity, { d with journal, confirmed }.resourceStatus identity =
        c.resourceStatus identity :=
    fun _ _ => ⟨hd.live, fun _ => (Alike.snapshot hd :), fun identity => (Alike.status hd identity :)⟩
  obtain rfl := hon.lease
  rcases Cell.engineHandler_journalWrite he hon.resource with
    ⟨rfl, rfl⟩ | ⟨⟨error, rfl⟩, -, d', rfl | rfl, rfl⟩
  · obtain ⟨hlive, hs, hid⟩ := hsame (d.publish record).journal
      (Function.update d.confirmed record.leaseId (some record))
    exact ⟨trivial, hk _ _ ⟨hlive, hs, hid, fun _ => AList.lookup_insert _⟩⟩
  · obtain ⟨hlive, hs, hid⟩ := hsame d'.journal (Function.update d'.confirmed record.leaseId none)
    exact ⟨trivial, hk _ _ ⟨hlive, hs, hid, fun h => absurd h (by simp)⟩⟩
  · obtain ⟨hlive, hs, hid⟩ := hsame (d.publish record).journal
      (Function.update d.confirmed record.leaseId none)
    exact ⟨trivial, hk _ _ ⟨hlive, hs, hid, fun h => absurd h (by simp)⟩⟩

end Rules

/-! ## Programs on other resources -/

/-- A program that makes no call on `r` leaves its cell alike. -/
lemma EngineAway.quiet {p : Engine FakeSnapshotData FakeIdentity α} (hp : EngineAway r p) :
    EngineQuiet F i m r p (fun _ d => Alike c d) c := by
  refine Program.Only.sat hp (fun hst h => Alike.trans h hst) (fun o s a t ho hs hst => ?_)
    (Alike.refl c)
  obtain ⟨ht, hnamed, -⟩ := Cell.handler_elsewhere hst ho
  exact ⟨hnamed, trivial, hs.trans (.pending ht)⟩

lemma EngineOn.quiet {r' : ResourceId} {p : Engine FakeSnapshotData FakeIdentity α}
    (hp : EngineOn r' p) (hne : r' ≠ r) : EngineQuiet F i m r p (fun _ d => Alike c d) c :=
  (hp.away hne).quiet

/-! ## Runs in the world -/

/-- A run of a program in a labelled world, seen from one cell. -/
lemma World.Labelled.runs_cell {w w' : World} {p : FakeManaged α} {a : α}
    {R : α → Set ResourceId → Prop} {observed : Set ResourceId} (hw : w.Labelled)
    (hp : p.Follows (sessionProvenance i anyOrigin) R observed)
    (hrun : p.Runs (World.handler F i m) w a w') :
    w'.Labelled ∧ (∃ observed', R a observed') ∧ ∀ r E G Q,
      p.Sat (Cell.handler F i m r) E G Q (w.cells r) → Q a (w'.cells r) := by
  induction p generalizing w observed with
  | done b =>
      obtain ⟨rfl, rfl⟩ := hrun
      exact ⟨hw, ⟨observed, hp⟩, fun r E G Q h => h _ (E.refl _)⟩
  | call o k ih =>
      obtain ⟨answer, u, ho, hk⟩ := hrun
      obtain ⟨hlabelled, hR, hcells⟩ := ih answer (hw.handled hp.1 ho)
        (hp.2 answer (hw.expected ho).1) hk
      exact ⟨hlabelled, hR, fun r E G Q h =>
        hcells r E G Q (h _ (E.refl _) answer _ (hw.handler_cell ho)).2⟩

/-- The calls of the engine, in the world. -/
abbrev World.engineHandler (F : Faults) (i : SessionId) (m : ManagerId) :
    Handler (EngineRet FakeSnapshotData FakeIdentity) World :=
  fun o w answer w' => World.handler F i m (.engine o) w answer w'

lemma World.runs_engine {w w' : World} {p : Engine FakeSnapshotData FakeIdentity α} {a : α} :
    (engine p).Runs (World.handler F i m) w a w' ↔ p.Runs (World.engineHandler F i m) w a w' := by
  refine Program.runs_lift.trans (Iff.of_eq ?_)
  congr 1
  funext o s answer t
  exact propext ⟨fun ⟨_, h, he⟩ => he ▸ h, fun h => ⟨_, h, rfl⟩⟩

/-- A run of an engine program in a labelled world, seen from one cell. -/
lemma World.Labelled.runs_engine {w w' : World} {p : Engine FakeSnapshotData FakeIdentity α}
    {a : α} {φ : α → Prop} (hw : w.Labelled) (hp : p.Keeps (provenance i anyOrigin) φ)
    (hrun : p.Runs (World.engineHandler F i m) w a w') :
    w'.Labelled ∧ φ a ∧ ∀ r Q, EngineQuiet F i m r p Q (w.cells r) → Q a (w'.cells r) := by
  obtain ⟨hw', ⟨observed, hφ⟩, hcells⟩ :=
    hw.runs_cell (vouches_engine hp ∅) (World.runs_engine.mpr hrun)
  refine ⟨hw', hφ.2, fun r Q hQ => hcells r bookkeeping (fun _ _ _ _ => True) Q ?_⟩
  exact Program.Sat.lift (fun _ _ _ _ h => h) (fun _ _ _ _ _ _ => trivial) hQ

end Osdns
