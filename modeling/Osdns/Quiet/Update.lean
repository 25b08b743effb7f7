import Osdns.Quiet.Records
import Osdns.Serial.Update

/-!
# The update transaction that nobody interferes with

The loops of `transactUpdate`, seen from the cell of one resource, once its entries were found.
The invariants follow `Serial/Update.lean`; they are shorter because nothing happens in between,
and they say which content the resource has and which plan its live record asks for.

An entry is `Waiting` until its intent is published, `Intended` until its native state is moved,
and then `Reached`.  A failed update leaves it `TakenBack`.
-/

namespace Osdns

open Interaction
open Interaction.Fallible (ask value attempt)
open Engine

variable {r : ResourceId} {L : LeaseId} {c₀ c d : Cell}
variable {F : Faults} {i : SessionId} {m : ManagerId} {caps : Capabilities} {α β : Type}
variable {plan : NormalizedConfig} {e : FakeEntry} {entries : List FakeEntry}

namespace Quiet

/-! ## Programs on other resources -/

/-- The calls of a program on another resource, before the rest. -/
lemma other {r' : ResourceId} {p : Engine FakeSnapshotData FakeIdentity α}
    {k : α → Engine FakeSnapshotData FakeIdentity β} {Q : β → Cell → Prop} (hp : EngineOn r' p)
    (hne : r' ≠ r) (hk : ∀ a d, Alike c d → EngineQuiet F i m r (k a) Q d) :
    EngineQuiet F i m r (p >>= k) Q c :=
  quiet_bind (hp.quiet hne) hk

/-- The live record of another resource. -/
lemma liveGet_other {r' : ResourceId} {k : FakeLive → Engine FakeSnapshotData FakeIdentity α}
    {Q : α → Cell → Prop} (hne : r' ≠ r)
    (hk : ∀ d live, LiveRecord.On r' L live → Alike c d → EngineQuiet F i m r (k live) Q d) :
    EngineQuiet F i m r (liveGet ⟨L, r'⟩ >>= k) Q c := by
  intro d hd live u hu
  have hnot : (EngineOp.liveGet ⟨L, r'⟩ : EngineOp FakeSnapshotData FakeIdentity).target ≠ some r :=
    fun h => hne (Option.some.inj h)
  obtain ⟨ht, hnamed, -⟩ := Cell.handler_elsewhere hu hnot
  exact ⟨trivial, hk u live hnamed (.trans hd (.pending ht))⟩

section Loops

variable {X γ : Type} {step : X → Engine FakeSnapshotData FakeIdentity β}
variable {loop : List X → Engine FakeSnapshotData FakeIdentity γ} {k : X → ResourceId}
variable {P Q : Cell → Prop}

/-- A loop over entries of different resources works on `r` once, if at all. -/
lemma performs (h : Performs step loop) {xs : List X}
    (hon : ∀ x ∈ xs, EngineOn (k x) (step x)) (hnodup : (xs.map k).Nodup)
    (hP : Stable bookkeeping P) (hQ : Stable bookkeeping Q)
    (hstep : ∀ x ∈ xs, k x = r → ∀ c, P c → EngineQuiet F i m r (step x) (fun _ => Q) c)
    (hc : P c) :
    EngineQuiet F i m r (loop xs) (fun _ d => (r ∈ xs.map k → Q d) ∧ (r ∉ xs.map k → P d))
      c := by
  induction xs generalizing c P with
  | nil =>
      obtain ⟨b, hb⟩ := h.nil
      rw [hb]
      exact fun d hd => ⟨fun hr => absurd hr (by simp), fun _ => hP hd hc⟩
  | cons x xs ih =>
      obtain ⟨g, hg⟩ := h.cons x xs
      rw [List.map_cons, List.nodup_cons] at hnodup
      have hon' : ∀ y ∈ xs, EngineOn (k y) (step y) := fun y hy =>
        hon y (List.mem_cons_of_mem x hy)
      rw [hg]
      by_cases hr : k x = r
      · have hlater : r ∉ xs.map k := hr ▸ hnodup.1
        have hmem : r ∈ (x :: xs).map k := by simp [hr]
        refine quiet_bind (hstep x List.mem_cons_self hr c hc) fun a d hd => ?_
        refine quiet_bind (ih hon' hnodup.2 hQ (fun y hy hyr => ?_) hd) fun b u hu => ?_
        · exact absurd (hyr ▸ List.mem_map_of_mem hy) hlater
        · exact fun v hv => ⟨fun _ => hQ hv (hu.2 hlater), fun hn => absurd hmem hn⟩
      · have hiff : r ∈ (x :: xs).map k ↔ r ∈ xs.map k := by simp [Ne.symm hr]
        refine other (hon x List.mem_cons_self) hr fun a d hd => ?_
        refine quiet_bind (ih hon' hnodup.2 hP (fun y hy => hstep y (List.mem_cons_of_mem x hy))
          (hP hd hc)) fun b u hu => ?_
        exact fun v hv => ⟨fun hm => hQ hv (hu.1 (hiff.mp hm)), fun hn =>
          hP hv (hu.2 fun hm => hn (hiff.mpr hm))⟩

end Loops

/-! ## Stages of an entry -/

/-- The entry was made from a committed record. -/
structure Sound (r : ResourceId) (e : FakeEntry) : Prop where
  of : e.applied.Of r
  applied : e.old.applied = some e.applied
  phase : e.old.phase = .applied

/-- The entry is as the update found it. -/
def Waiting (r : ResourceId) (L : LeaseId) (c₀ : Cell) (e : FakeEntry) (c : Cell) : Prop :=
  Stands r L c₀ ⟨e.old, .committed⟩ e.applied c

/-- The entry carries its intent. -/
def Intended (r : ResourceId) (L : LeaseId) (c₀ : Cell) (plan : NormalizedConfig) (e : FakeEntry)
    (c : Cell) : Prop :=
  Stands r L c₀ ⟨e.intent plan, .unmutated⟩ e.applied c

/-- The native state of the entry was moved to the plan. -/
structure Reached (r : ResourceId) (L : LeaseId) (c₀ : Cell) (plan : NormalizedConfig)
    (e : FakeEntry) (mutation : FakeMutation) (c : Cell) : Prop where
  stands : Stands r L c₀ ⟨e.intent plan, .prepared⟩ mutation.persist c
  content : mutation.persist.data.state = mergeState e.applied.data.state plan
  same : c.resourceStatus e.old.identity = .ok .same

/-- The native state of the entry has its old content again, and the residue names it. -/
def Residual (r : ResourceId) (L : LeaseId) (c₀ : Cell) (e : FakeEntry) (residue : FakeResidue)
    (c : Cell) : Prop :=
  ∃ q live, Stands r L c₀ live q c ∧ q.data.state = e.applied.data.state ∧
    (residue = .unchanged ∧ q = e.applied ∨ residue = .restored (some q))

/-- The entry has its old content, and its live record is the old one over evidence for it. -/
def TakenBack (r : ResourceId) (L : LeaseId) (c₀ : Cell) (e : FakeEntry) (c : Cell) : Prop :=
  ∃ q state, Stands r L c₀ ⟨{ e.old with applied := some q }, state⟩ q c ∧
    q.data.state = e.applied.data.state ∧ (state = .committed ∨ state = .repair .committed)

lemma Reached.stable {mutation : FakeMutation} :
    Stable bookkeeping (Reached r L c₀ plan e mutation) := fun h hc =>
  ⟨hc.stands.alike h, hc.content, (Alike.status h _).trans hc.same⟩

lemma Residual.stable {residue : FakeResidue} :
    Stable bookkeeping (Residual r L c₀ e residue) := fun h ⟨q, live, hs, hq⟩ =>
  ⟨q, live, hs.alike h, hq⟩

lemma TakenBack.stable : Stable bookkeeping (TakenBack r L c₀ e) := fun h ⟨q, state, hs, hq⟩ =>
  ⟨q, state, hs.alike h, hq⟩

/-! ## Settling an entry -/

/-- `persist_live` of the old record over evidence `q` that is current. -/
lemma persistOld {candidate : FakeRecord} {live : FakeLive} {q : FakeSnapshot} (hon : e.On L)
    (hr : e.ref.resource = r) (hphase : e.old.phase = .applied)
    (hcand : candidate = { e.old with applied := some q }) (hs : Stands r L c₀ live q c)
    (hq : q.data.state = e.applied.data.state) :
    EngineQuiet F i m r (persistLive e.ref candidate).run (fun _ => TakenBack r L c₀ e) c := by
  have hsettled : candidate.settledState = .committed := by
    rw [hcand, JournalRecord.settledState, if_pos hphase]
  have hcon : candidate.On r L := by
    subst hr hcand
    exact ⟨hon.old.lease, hon.old.resource, hon.old.identity⟩
  have href : e.ref = ⟨L, r⟩ := hr ▸ hon.ref_eq
  rw [href]
  refine (quiet_persistLive hcon hs).mono fun answer d hd => ?_
  rw [hsettled, hcand] at hd
  rcases hd with ⟨-, -, hd⟩ | ⟨-, hd⟩
  · exact ⟨q, _, hd, hq, .inl rfl⟩
  · exact ⟨q, _, hd, hq, .inr rfl⟩

/-- `settleUpdated` over what is left with its old content. -/
lemma settleUpdated {residue : FakeResidue} (hon : e.On L) (hr : e.ref.resource = r)
    (hsound : Sound r e) (h : Residual r L c₀ e residue c) :
    EngineQuiet F i m r (settleUpdated (fakeBackend caps) e residue)
      (fun _ => TakenBack r L c₀ e) c := by
  obtain ⟨q, live, hs, hq, ⟨rfl, rfl⟩ | rfl⟩ := h
  · have hold : e.old = { e.old with applied := some e.applied } := by rw [← hsound.applied]
    refine quiet_bind (persistOld hon hr hsound.phase hold hs hq) fun answer d hd => ?_
    cases answer <;> exact quiet_pure TakenBack.stable hd
  · refine quiet_bind (persistOld hon hr hsound.phase rfl hs hq) fun answer d hd => ?_
    cases answer <;> exact quiet_pure TakenBack.stable hd

/-! ## All entries -/

/-- Every entry of `r` satisfies `P`. -/
def Each (r : ResourceId) (entries : List FakeEntry) (P : FakeEntry → Cell → Prop) (c : Cell) :
    Prop :=
  ∀ e ∈ entries, e.ref.resource = r → P e c

lemma Each.stable {P : FakeEntry → Cell → Prop} (hP : ∀ e, Stable bookkeeping (P e)) :
    Stable bookkeeping (Each r entries P) := fun h hc e he hr => hP e h (hc e he hr)

/-- From what a loop leaves of `r` to what it leaves of each entry. -/
lemma each_of_loop {P : FakeEntry → Cell → Prop} (h : Distinct L entries)
    (hc : r ∈ entries.map (·.ref.resource) → ∃ e ∈ entries, e.ref.resource = r ∧ P e c) :
    Each r entries P c := fun e he hr => by
  obtain ⟨e', he', hr', hP⟩ := hc (hr ▸ List.mem_map_of_mem he)
  rwa [h.unique he he' (hr.trans hr'.symm)]

/-- Entries whose native state is still as the update found it. -/
def Untouched (r : ResourceId) (L : LeaseId) (c₀ : Cell) (e : FakeEntry) (c : Cell) : Prop :=
  ∃ live, Stands r L c₀ live e.applied c

lemma Untouched.stable : Stable bookkeeping (Untouched r L c₀ e) := fun h ⟨live, hs⟩ =>
  ⟨live, hs.alike h⟩

lemma quiet_persistOlds (h : Distinct L entries) (hsound : ∀ e ∈ entries, e.ref.resource = r →
    Sound r e) (hc : Each r entries (Untouched r L c₀) c) :
    EngineQuiet F i m r (persistOlds entries) (fun _ => Each r entries (TakenBack r L c₀)) c := by
  refine (performs (k := fun e : FakeEntry => e.ref.resource) persistOlds_performs
    (fun e he => ?_) h.nodup (P := Each r entries (Untouched r L c₀))
    (Each.stable (P := Untouched r L c₀) fun _ => Untouched.stable)
    (Q := fun d => ∃ e ∈ entries, e.ref.resource = r ∧ TakenBack r L c₀ e d)
    (fun hd ⟨e, he, hr, hb⟩ => ⟨e, he, hr, TakenBack.stable hd hb⟩) (fun e he hr d hd => ?_)
    hc).mono fun _ d hd => each_of_loop h hd.1
  · exact (h.on e he).ref_eq ▸ engineOn_persistLive (h.on e he).old
  · obtain ⟨live, hs⟩ := hd e he hr
    have hold : e.old = { e.old with applied := some e.applied } := by
      rw [← (hsound e he hr).applied]
    exact (persistOld (h.on e he) hr (hsound e he hr).phase hold hs rfl).mono fun _ _ hb =>
      ⟨e, he, hr, hb⟩

/-! ## Finding the entries -/

/-- Resolving committed records changes nothing, and finds them. -/
structure FoundAll (r : ResourceId) (L : LeaseId) (refs : List LiveRef) (c : Cell)
    (answer : Except Error (List FakeEntry)) (d : Cell) : Prop where
  alike : Alike c d
  refs : ∀ entries, answer = .ok entries → entries.map (·.ref) = refs
  found : ∀ entries, answer = .ok entries → ∀ e ∈ entries, e.ref.resource = r →
    c.live L = some ⟨e.old, .committed⟩ ∧ e.old.applied = some e.applied

lemma FoundAll.stable {refs : List LiveRef} {answer : Except Error (List FakeEntry)} :
    Stable bookkeeping (FoundAll r L refs c answer) := fun h hc =>
  ⟨hc.alike.trans h, hc.refs, hc.found⟩

lemma FoundAll.error {refs : List LiveRef} {error : Error} (h : Alike c d) :
    FoundAll r L refs c (.error error) d :=
  ⟨h, fun _ he => absurd he (by simp), fun _ he => absurd he (by simp)⟩

lemma quiet_resolveAll {refs : List LiveRef} (hrefs : Refs L refs)
    (hc : r ∈ refs.map (·.resource) → ∃ record, c.live L = some ⟨record, .committed⟩) :
    EngineQuiet F i m r (resolveAll (fakeBackend caps) refs).run (FoundAll r L refs c) c := by
  induction refs generalizing c with
  | nil =>
      refine quiet_pure FoundAll.stable ⟨.refl c, fun entries h => ?_, fun entries h => ?_⟩ <;>
        obtain rfl := Except.ok.inj h <;> simp
  | cons ref refs ih =>
      have hlease := hrefs.lease ref List.mem_cons_self
      obtain ⟨lease, r'⟩ := ref
      obtain rfl := hlease
      have hnodup := List.nodup_cons.mp hrefs.nodup
      have hfail : ∀ {d : Cell} {error : Error}, Alike c d →
          EngineQuiet F i m r (pure (.error error))
            (FoundAll r lease (⟨lease, r'⟩ :: refs) c) d := fun hd =>
        quiet_pure FoundAll.stable (.error hd)
      -- What the rest of the loop finds, once the head was found.
      have hrest : ∀ {d : Cell} {record : FakeRecord} {applied : FakeSnapshot}, Alike c d →
          (r' = r → c.live lease = some ⟨record, .committed⟩ ∧ record.applied = some applied) →
          EngineQuiet F i m r (do
            return ⟨⟨lease, r'⟩, record, applied⟩ :: (← resolveAll (fakeBackend caps) refs) :
              EngineResult FakeSnapshotData FakeIdentity (List FakeEntry)).run
            (FoundAll r lease (⟨lease, r'⟩ :: refs) c) d := by
        intro d record applied hd hhead
        refine Fallible.sat_bind (ih hrefs.tail fun hmem => ?_) (fun entries u hu => ?_)
          fun error u hu => hfail (hd.trans hu.alike)
        · obtain ⟨record, hr⟩ := hc (List.mem_cons_of_mem _ hmem)
          exact ⟨record, (congrFun hd.live lease).trans hr⟩
        · refine quiet_pure FoundAll.stable ⟨hd.trans hu.alike, fun entries' h => ?_,
            fun entries' h e he her => ?_⟩ <;> obtain rfl := Except.ok.inj h
          · rw [List.map_cons, hu.refs entries rfl]
          · rcases List.mem_cons.mp he with rfl | he
            · exact hhead her
            · obtain ⟨hlive, happlied⟩ := hu.found entries rfl e he her
              exact ⟨(congrFun hd.live lease).symm.trans hlive, happlied⟩
      unfold resolveAll
      by_cases hr : r' = r
      · obtain ⟨record, hlive⟩ := hc (by simp [hr])
        subst hr
        have hresolve : EngineQuiet F i m r' (resolveLive (fakeBackend caps) ⟨lease, r'⟩ none).run
            (fun _ d => Alike c d) c := by
          refine quiet_liveGet rfl hlive fun d hd => ?_
          exact quiet_pure (fun h hs => hs.trans h) hd
        refine Fallible.sat_bind hresolve (fun _ d hd => ?_) fun error d hd => hfail hd
        refine quiet_liveGet rfl ((congrFun hd.live lease).trans hlive) fun u hu => ?_
        dsimp only [ExceptT.bindCont]
        split
        · exact hfail (hd.trans hu)
        · rename_i applied happlied
          exact hrest (hd.trans hu) fun _ => ⟨hlive, happlied⟩
      · refine Fallible.sat_bind ((engineOn_resolveLive _).quiet hr) (fun _ d hd => ?_)
          fun error d hd => hfail hd
        refine liveGet_other hr fun u live _ hu => ?_
        dsimp only [ExceptT.bindCont]
        split
        · exact hfail (hd.trans hu)
        · exact hrest (hd.trans hu) fun h => absurd h hr

/-- What the ownership check leaves: nothing is changed, and it goes through over current evidence
only. -/
def Checked (r : ResourceId) (entries : List FakeEntry) (c : Cell) (answer : Except Error Unit)
    (d : Cell) : Prop :=
  Alike c d ∧ (answer = .ok () → ∀ e ∈ entries, e.ref.resource = r → d.snapshot r = some e.applied)

lemma Checked.stable {answer : Except Error Unit} :
    Stable bookkeeping (Checked r entries c answer) := fun h hc =>
  ⟨hc.1.trans h, fun ha e he hr => h.snapshot.trans (hc.2 ha e he hr)⟩

lemma quiet_verifyOwnership (hon : ∀ e ∈ entries, e.On L)
    (hof : ∀ e ∈ entries, e.ref.resource = r → e.applied.Of r) :
    EngineQuiet F i m r (verifyOwnership (fakeBackend caps) entries).run (Checked r entries c) c := by
  induction entries generalizing c with
  | nil => exact quiet_pure Checked.stable ⟨.refl c, fun _ e he => absurd he (by simp)⟩
  | cons e rest ih =>
      have he := hon e List.mem_cons_self
      have hfail : ∀ {d : Cell} {error : Error}, Alike c d →
          EngineQuiet F i m r (pure (.error error)) (Checked r (e :: rest) c) d := fun hd =>
        quiet_pure Checked.stable ⟨hd, fun h => absurd h (by simp)⟩
      have hrest : ∀ {d : Cell}, Alike c d → (e.ref.resource = r → d.snapshot r = some e.applied) →
          EngineQuiet F i m r (verifyOwnership (fakeBackend caps) rest).run
            (Checked r (e :: rest) c) d := by
        intro d hd hhead
        refine (ih (fun x hx => hon x (List.mem_cons_of_mem e hx)) fun x hx =>
          hof x (List.mem_cons_of_mem e hx)).mono fun answer u hu =>
            ⟨hd.trans hu.1, fun ha x hx hxr => ?_⟩
        rcases List.mem_cons.mp hx with rfl | hx
        · exact hu.1.snapshot.trans (hhead hxr)
        · exact hu.2 ha x hx hxr
      by_cases hr : e.ref.resource = r
      · refine quiet_readback (he.old.resource.trans hr) fun d answer hd hanswer => ?_
        rcases hanswer with ⟨p, hp, rfl⟩ | ⟨⟨error, rfl⟩, -⟩
        swap
        · exact hfail hd
        refine quiet_fire fun u answer hu _ => ?_
        replace hu := hd.trans hu
        cases answer with
        | error error => exact hfail hu
        | ok _ =>
        dsimp only [ExceptT.bindCont]
        split
        · exact hfail hu
        · rename_i howns
          rw [fakeBackend_ownsCurrent, Bool.not_eq_false,
            fakeBackend_provesCurrent (hof e List.mem_cons_self hr) (Cell.snapshot_eq_some hp).1]
            at howns
          exact hrest hu fun _ => hu.snapshot.trans (howns ▸ hp)
      · have hreadback : EngineOn e.ref.resource
            (readback .forward e.old.resource : Engine FakeSnapshotData FakeIdentity _) :=
          he.old.resource ▸ engineOn_readback _
        refine other hreadback hr fun answer d hd => ?_
        cases answer with
        | error error => exact hfail hd
        | ok p =>
        refine quiet_fire fun u answer hu _ => ?_
        replace hu := hd.trans hu
        cases answer with
        | error error => exact hfail hu
        | ok _ =>
        dsimp only [ExceptT.bindCont]
        split
        · exact hfail hu
        · exact hrest hu fun h => absurd h hr

/-! ## Preparing the entries -/

/-- How far the intents are published: `todo` are the entries still to come. -/
def Preparing (r : ResourceId) (L : LeaseId) (c₀ : Cell) (plan : NormalizedConfig)
    (entries todo : List FakeEntry) (c : Cell) : Prop :=
  Each r entries (fun e d => (e ∈ todo → Waiting r L c₀ e d) ∧
    (e ∉ todo → Intended r L c₀ plan e d)) c

lemma Preparing.stable {todo : List FakeEntry} :
    Stable bookkeeping (Preparing r L c₀ plan entries todo) := fun h hc e he hr =>
  ⟨fun hm => ((hc e he hr).1 hm).alike h, fun hm => ((hc e he hr).2 hm).alike h⟩

lemma Preparing.untouched {todo : List FakeEntry} (h : Preparing r L c₀ plan entries todo c) :
    Each r entries (Untouched r L c₀) c := fun e he hr => by
  by_cases hm : e ∈ todo
  · exact ⟨_, (h e he hr).1 hm⟩
  · exact ⟨_, (h e he hr).2 hm⟩

/-- What publishing the intents leaves. -/
def PreparedAll (r : ResourceId) (L : LeaseId) (c₀ : Cell) (plan : NormalizedConfig)
    (entries : List FakeEntry) (answer : Except Error Unit) (c : Cell) : Prop :=
  match answer with
  | .ok _ => Each r entries (Intended r L c₀ plan) c
  | .error _ => Each r entries (TakenBack r L c₀) c

lemma PreparedAll.stable {answer : Except Error Unit} :
    Stable bookkeeping (PreparedAll r L c₀ plan entries answer) := fun h hc => by
  cases answer with
  | ok _ => exact fun e he hr => (hc e he hr).alike h
  | error error => exact fun e he hr => TakenBack.stable h (hc e he hr)

lemma quiet_prepareAll {todo : List FakeEntry} (h : Distinct L entries)
    (hsound : ∀ e ∈ entries, e.ref.resource = r → Sound r e)
    (hsub : ∀ x ∈ todo, x ∈ entries) (hnodup : todo.Nodup)
    (hc : Preparing r L c₀ plan entries todo c) :
    EngineQuiet F i m r (prepareAll plan entries todo).run (PreparedAll r L c₀ plan entries) c := by
  induction todo generalizing c with
  | nil => exact quiet_pure PreparedAll.stable fun e he hr => (hc e he hr).2 (by simp)
  | cons e rest ih =>
      have he := hsub e List.mem_cons_self
      have hon := h.on e he
      have hrest : ∀ x ∈ rest, x ∈ entries := fun x hx => hsub x (List.mem_cons_of_mem e hx)
      rw [List.nodup_cons] at hnodup
      have hfail : ∀ {d : Cell} (error : Error), Each r entries (Untouched r L c₀) d →
          EngineQuiet F i m r (do
            let cleanup ← value (persistOlds entries)
            throw (transactionError error cleanup) :
              EngineResult FakeSnapshotData FakeIdentity Unit).run
            (PreparedAll r L c₀ plan entries) d := fun error hd =>
        Fallible.sat_value (quiet_persistOlds h hsound hd) fun _ _ hu =>
          quiet_pure PreparedAll.stable hu
      unfold prepareAll
      by_cases hr : e.ref.resource = r
      · have hw : Waiting r L c₀ e c := (hc e he hr).1 List.mem_cons_self
        have href : e.ref = ⟨L, r⟩ := hr ▸ hon.ref_eq
        have hcon : (e.intent plan).On r L := by
          subst hr
          exact ⟨hon.old.lease, hon.old.resource, hon.old.identity⟩
        refine quiet_liveGet href hw.live_eq fun d hd => quiet_liveSet href fun d' hd' => ?_
        have hi : Intended r L c₀ plan e (d'.setLive L ⟨e.intent plan, .unmutated⟩) :=
          (hw.alike (hd.trans hd')).setLive
        refine quiet_journalWrite hcon fun u answer hu => ?_
        have hnext : Preparing r L c₀ plan entries rest u := fun x hx hxr => by
          obtain rfl := h.unique hx he (hxr.trans hr.symm)
          exact ⟨fun hm => absurd hm hnodup.1, fun _ => hi.rewritten hu⟩
        cases answer with
        | ok _ => exact ih hrest hnodup.2 hnext
        | error error => exact hfail error hnext.untouched
      · rw [hon.ref_eq]
        refine liveGet_other hr fun d live hlive hd => ?_
        refine Fallible.sat_value ((engineOn_liveSet _).quiet hr) fun _ u hu => ?_
        have hwrite : EngineOn e.ref.resource
            (journalWrite { live.record with desired := plan, phase := .prepared }) :=
          engineOn_journalWrite hlive.record.resource
        refine Fallible.sat_value (hwrite.quiet hr) fun answer v hv => ?_
        have hnext : Preparing r L c₀ plan entries rest v := fun x hx hxr => by
          have hne : x ≠ e := fun heq => hr (heq ▸ hxr)
          obtain ⟨hw, hi⟩ := Preparing.stable (hd.trans (hu.trans hv)) hc x hx hxr
          exact ⟨fun hm => hw (List.mem_cons_of_mem e hm), fun hm =>
            hi fun hm' => (List.mem_cons.mp hm').elim hne hm⟩
        cases answer with
        | ok _ => exact ih hrest hnodup.2 hnext
        | error error => exact hfail error hnext.untouched

/-! ## Mutating the entries -/

/-- The loop of mutations: what is reached so far, and what still carries its intent. -/
structure Moving (r : ResourceId) (L : LeaseId) (c₀ : Cell) (plan : NormalizedConfig)
    (updated : List (FakeEntry × FakeMutation)) (todo : List FakeEntry) (c : Cell) : Prop where
  reached : ∀ x ∈ updated, x.1.ref.resource = r → Reached r L c₀ plan x.1 x.2 c
  waiting : Each r todo (Intended r L c₀ plan) c

lemma Moving.stable {updated : List (FakeEntry × FakeMutation)} {todo : List FakeEntry} :
    Stable bookkeeping (Moving r L c₀ plan updated todo) := fun h hc =>
  ⟨fun x hx hr => Reached.stable h (hc.reached x hx hr), fun e he hr =>
    (hc.waiting e he hr).alike h⟩

/-- What the loop of mutations leaves of the entries. -/
def MovedAll (F : Faults) (r : ResourceId) (L : LeaseId) (c₀ : Cell) (plan : NormalizedConfig)
    (entries : List FakeEntry) (answer : Except Error (List (FakeEntry × FakeMutation)))
    (c : Cell) : Prop :=
  match answer with
  | .ok updated => updated.map Prod.fst = entries ∧ Moving r L c₀ plan updated [] c
  | .error _ => Gentle F → Each r entries (TakenBack r L c₀) c

lemma MovedAll.stable {answer : Except Error (List (FakeEntry × FakeMutation))} :
    Stable bookkeeping (MovedAll F r L c₀ plan entries answer) := fun h hc => by
  cases answer with
  | ok updated => exact ⟨hc.1, Moving.stable h hc.2⟩
  | error error => exact fun hF e he hr => TakenBack.stable h (hc hF e he hr)

/-- What rolling back the reached entries leaves. -/
structure RolledBack (r : ResourceId) (L : LeaseId) (c₀ c : Cell)
    (updated : List (FakeEntry × FakeMutation)) (residues : List (FakeEntry × FakeResidue))
    (d : Cell) : Prop where
  fst : residues.map Prod.fst = updated.map Prod.fst
  residual : ∀ x ∈ residues, x.1.ref.resource = r → Residual r L c₀ x.1 x.2 d
  others : r ∉ updated.map (·.1.ref.resource) → Alike c d

lemma RolledBack.stable {updated : List (FakeEntry × FakeMutation)}
    {residues : List (FakeEntry × FakeResidue)} :
    Stable bookkeeping (RolledBack r L c₀ c updated residues) := fun h hc =>
  ⟨hc.fst, fun x hx hr => Residual.stable h (hc.residual x hx hr), fun hr =>
    (hc.others hr).trans h⟩

/-- A reached entry goes back to its old content. -/
lemma quiet_rollbackReached {mutation : FakeMutation} (hF : Gentle F) (hon : e.On L)
    (hr : e.ref.resource = r) (hsound : Sound r e) (h : Reached r L c₀ plan e mutation c) :
    EngineQuiet F i m r (rollbackProven (fakeBackend caps) L e.old.identity (some mutation.persist)
      e.applied) (Residual r L c₀ e) c :=
  (quiet_rollbackProven hF (hon.old.identity.trans hr) h.same h.stands.snapshot hsound.of
    (.inl rfl)).mono fun _ _ ⟨q, hq, hs⟩ =>
      ⟨q, _, h.stands.shows hs, hs.content, .inr hq⟩

lemma quiet_rollbackUpdated {updated : List (FakeEntry × FakeMutation)} (hF : Gentle F)
    (h : Distinct L (updated.map Prod.fst))
    (hsound : ∀ x ∈ updated, x.1.ref.resource = r → Sound r x.1)
    (hc : ∀ x ∈ updated, x.1.ref.resource = r → Reached r L c₀ plan x.1 x.2 c) :
    EngineQuiet F i m r (rollbackUpdated (fakeBackend caps) updated)
      (RolledBack r L c₀ c updated) c := by
  induction updated generalizing c with
  | nil => exact quiet_pure RolledBack.stable ⟨rfl, fun x hx => absurd hx (by simp), fun _ => .refl c⟩
  | cons x rest ih =>
      obtain ⟨e, mutation⟩ := x
      have hon := h.on e (by simp)
      have hnodup := h.nodup
      simp only [List.map_cons, List.nodup_cons, List.map_map] at hnodup
      have hrest : Distinct L (rest.map Prod.fst) :=
        ⟨fun y hy => h.on y (List.mem_cons_of_mem e hy), by rw [List.map_map]; exact hnodup.2⟩
      have hsound' : ∀ y ∈ rest, y.1.ref.resource = r → Sound r y.1 := fun y hy =>
        hsound y (List.mem_cons_of_mem _ hy)
      unfold rollbackUpdated
      rw [hon.lease]
      by_cases hr : e.ref.resource = r
      · have hnone : r ∉ rest.map (·.1.ref.resource) := hr ▸ hnodup.1
        refine quiet_bind (quiet_rollbackReached hF hon hr (hsound _ List.mem_cons_self hr)
          (hc (e, mutation) List.mem_cons_self hr)) fun residue d hd => ?_
        refine quiet_bind (ih hrest hsound' fun y hy hyr =>
          absurd (List.mem_map.mpr ⟨y, hy, hyr⟩) hnone) fun residues u hu => ?_
        refine quiet_pure RolledBack.stable ⟨by simp [hu.fst], fun y hy hyr => ?_,
          fun hn => absurd (by simp [hr]) hn⟩
        rcases List.mem_cons.mp hy with rfl | hy
        · exact Residual.stable (hu.others hnone) hd
        · exact hu.residual y hy hyr
      · refine other (engineOn_rollbackProven _ hon.old.identity) hr fun residue d hd => ?_
        refine quiet_bind (ih hrest hsound' fun y hy hyr =>
          Reached.stable hd (hc y (List.mem_cons_of_mem _ hy) hyr)) fun residues u hu => ?_
        refine quiet_pure RolledBack.stable ⟨by simp [hu.fst], fun y hy hyr => ?_, fun hn =>
          hd.trans (hu.others fun hm => hn (List.mem_cons_of_mem _ hm))⟩
        rcases List.mem_cons.mp hy with rfl | hy
        · exact absurd hyr hr
        · exact hu.residual y hy hyr

lemma quiet_settleAllUpdated {residues : List (FakeEntry × FakeResidue)}
    (h : Distinct L (residues.map Prod.fst))
    (hsound : ∀ e ∈ residues.map Prod.fst, e.ref.resource = r → Sound r e)
    (hc : ∀ x ∈ residues, x.1.ref.resource = r → Residual r L c₀ x.1 x.2 c) :
    EngineQuiet F i m r (settleAllUpdated (fakeBackend caps) residues)
      (fun _ => Each r (residues.map Prod.fst) (TakenBack r L c₀)) c := by
  have hmem : ∀ {x : FakeEntry × FakeResidue}, x ∈ residues → x.1 ∈ residues.map Prod.fst :=
    fun hx => List.mem_map_of_mem hx
  have hkeys : residues.map (fun x => x.1.ref.resource) =
      (residues.map Prod.fst).map (·.ref.resource) := by rw [List.map_map]; rfl
  refine (performs settleAllUpdated_performs
    (fun x hx => engineOn_settleUpdated (h.on _ (hmem hx))) (hkeys ▸ h.nodup)
    (P := fun d => ∀ x ∈ residues, x.1.ref.resource = r → Residual r L c₀ x.1 x.2 d)
    (Q := fun d => ∃ e ∈ residues.map Prod.fst, e.ref.resource = r ∧ TakenBack r L c₀ e d)
    (fun hst hd x hx hr => Residual.stable hst (hd x hx hr))
    (fun hst ⟨e, he, hr, hb⟩ => ⟨e, he, hr, TakenBack.stable hst hb⟩) (fun x hx hr d hd => ?_)
    hc).mono fun _ d hd => each_of_loop h (hkeys ▸ hd.1)
  exact (settleUpdated (h.on _ (hmem hx)) hr (hsound _ (hmem hx) hr) (hd x hx hr)).mono
    fun _ u hu => ⟨x.1, hmem hx, hr, hu⟩

/-- The way out of the loop: what was reached goes back and every entry is settled. -/
lemma quiet_withdrawUpdate {updated : List (FakeEntry × FakeMutation)} {rest : List FakeEntry}
    {failure : MutationFailure FakeSnapshotData} (h : Distinct L entries)
    (hsound : ∀ e ∈ entries, e.ref.resource = r → Sound r e)
    (heq : entries = updated.map Prod.fst ++ e :: rest)
    (hc : Moving r L c₀ plan updated rest c)
    (hfailed : Gentle F → e.ref.resource = r → Residual r L c₀ e failure.residue c) :
    EngineQuiet F i m r (do
        let residues ← value (rollbackUpdated (fakeBackend caps) updated)
        let _ ← value (fire .afterUpdateVerify)
        let cleanup ← value (settleAllUpdated (fakeBackend caps)
          (residues ++ (e, failure.residue) :: rest.map (·, .unchanged)))
        throw (transactionError failure.error cleanup) :
          EngineResult FakeSnapshotData FakeIdentity (List (FakeEntry × FakeMutation))).run
      (MovedAll F r L c₀ plan entries) c := by
  by_cases hF : Gentle F
  swap
  · refine Fallible.sat_value quiet_any fun residues d _ => ?_
    refine Fallible.sat_value quiet_any fun _ d _ => ?_
    refine Fallible.sat_value quiet_any fun _ d _ => ?_
    exact quiet_pure MovedAll.stable fun h => absurd h hF
  have hin : ∀ x ∈ updated.map Prod.fst, x ∈ entries := fun x hx =>
    heq ▸ List.mem_append_left _ hx
  have hupdated : Distinct L (updated.map Prod.fst) :=
    ⟨fun x hx => h.on x (hin x hx), by
      have := h.nodup
      rw [heq, List.map_append] at this
      exact this.of_append_left⟩
  refine Fallible.sat_value (quiet_rollbackUpdated hF hupdated
    (fun x hx => hsound _ (hin _ (List.mem_map_of_mem hx))) hc.reached) fun residues d hd => ?_
  refine quiet_fire fun u answer hu _ => ?_
  have hall : entries = (residues ++ (e, failure.residue) :: rest.map (·, .unchanged)).map
      Prod.fst := by
    simp [heq, hd.fst, Function.comp_def]
  have hnone : ∀ x ∈ e :: rest, x.ref.resource = r → r ∉ updated.map (·.1.ref.resource) := by
    intro x hx hxr hm
    have := h.nodup
    rw [heq, List.map_append, List.nodup_append] at this
    exact this.2.2 r (by rwa [List.map_map]) r (hxr ▸ List.mem_map_of_mem hx) rfl
  have hresidual : ∀ x ∈ residues ++ (e, failure.residue) :: rest.map (·, .unchanged),
      x.1.ref.resource = r → Residual r L c₀ x.1 x.2 u := by
    intro x hx hxr
    rcases List.mem_append.mp hx with hx | hx
    · exact Residual.stable hu (hd.residual x hx hxr)
    rcases List.mem_cons.mp hx with rfl | hx
    · exact Residual.stable ((hd.others (hnone _ List.mem_cons_self hxr)).trans hu) (hfailed hF hxr)
    · obtain ⟨y, hy, rfl⟩ := List.mem_map.mp hx
      have hi := (hc.waiting y hy hxr).alike
        ((hd.others (hnone y (List.mem_cons_of_mem e hy) hxr)).trans hu)
      exact ⟨_, _, hi, rfl, .inl ⟨rfl, rfl⟩⟩
  refine Fallible.sat_value (quiet_settleAllUpdated (hall ▸ h) (hall ▸ hsound) hresidual)
    fun _ v hv => quiet_pure MovedAll.stable fun _ => ?_
  rw [← hall] at hv
  exact hv

lemma quiet_mutateUpdated {updated : List (FakeEntry × FakeMutation)} {todo : List FakeEntry}
    (h : Distinct L entries) (hsound : ∀ e ∈ entries, e.ref.resource = r → Sound r e)
    (heq : entries = updated.map Prod.fst ++ todo) (hc : Moving r L c₀ plan updated todo c) :
    EngineQuiet F i m r (mutateUpdated (fakeBackend caps) plan updated todo).run
      (MovedAll F r L c₀ plan entries) c := by
  induction todo generalizing updated c with
  | nil => exact quiet_pure MovedAll.stable ⟨by rw [heq, List.append_nil], hc⟩
  | cons e rest ih =>
      have hon := h.on e (by simp [heq])
      have hres := hon.old.identity
      have hnext : ∀ mutation : FakeMutation,
          entries = (updated ++ [(e, mutation)]).map Prod.fst ++ rest := fun _ => by simp [heq]
      have hkeys := h.nodup
      rw [heq, List.map_append, List.map_cons, List.nodup_append] at hkeys
      unfold mutateUpdated
      rw [hon.ref_eq]
      by_cases hr : e.ref.resource = r
      · have hi := hc.waiting e List.mem_cons_self hr
        -- No other entry is of this resource.
        have hothers : ∀ {d : Cell}, Moving r L c₀ plan updated rest d :=
          ⟨fun x hx hxr => absurd rfl (hkeys.2.2 r
              (List.mem_map.mpr ⟨x.1, List.mem_map_of_mem hx, hxr⟩) r (by simp [hr])),
            fun x hx hxr => absurd (List.mem_map.mpr ⟨x, hx, hxr.trans hr.symm⟩)
              (List.nodup_cons.mp hkeys.2.1).1⟩
        rw [hr]
        refine quiet_liveGet rfl hi.live_eq fun d hd => quiet_liveSet rfl fun d' hd' => ?_
        have hp : Stands r L c₀ ⟨e.intent plan, .prepared⟩ e.applied
            (d'.setLive L ⟨e.intent plan, .prepared⟩) := (hi.alike (hd.trans hd')).setLive
        refine Fallible.sat_value (quiet_mutateAndVerify (hres.trans hr) hp.snapshot)
          fun answer v hv => ?_
        cases answer with
        | ok mutation =>
            obtain ⟨hshows, hsame⟩ := hv.ok mutation rfl
            refine ih (hnext mutation) ⟨fun x hx hxr => ?_, hothers.waiting⟩
            rcases List.mem_append.mp hx with hx | hx
            · exact hothers.reached x hx hxr
            · obtain rfl := List.mem_singleton.mp hx
              exact ⟨hp.shows hshows, hshows.content, hsame⟩
        | error failure =>
            refine quiet_withdrawUpdate h hsound heq hothers fun hF _ => ?_
            obtain ⟨q, hq, hnames⟩ := hv.error hF failure rfl
            exact ⟨q, _, hp.shows hq, hq.content, hnames⟩
      · refine liveGet_other hr fun d live _ hd => ?_
        refine Fallible.sat_value ((engineOn_liveSet _).quiet hr) fun _ u hu => ?_
        refine Fallible.sat_value ((engineOn_mutateAndVerify _ hres).quiet hr) fun answer v hv => ?_
        have hv' := Moving.stable (hd.trans (hu.trans hv)) hc
        have hrest : Moving r L c₀ plan updated rest v :=
          ⟨hv'.reached, fun x hx => hv'.waiting x (List.mem_cons_of_mem e hx)⟩
        cases answer with
        | ok mutation =>
            refine ih (hnext mutation) ⟨fun x hx hxr => ?_, hrest.waiting⟩
            rcases List.mem_append.mp hx with hx | hx
            · exact hrest.reached x hx hxr
            · obtain rfl := List.mem_singleton.mp hx
              exact absurd hxr hr
        | error failure =>
            exact quiet_withdrawUpdate h hsound heq hrest fun _ hxr => absurd hxr hr

/-! ## Publishing the update -/

/-- What publishing the verified mutations leaves: all of them are published when no error is
answered. -/
def Published (r : ResourceId) (L : LeaseId) (c₀ : Cell) (plan : NormalizedConfig)
    (updated : List (FakeEntry × FakeMutation)) (answer : Option Error) (c : Cell) : Prop :=
  ∀ x ∈ updated, x.1.ref.resource = r → ∃ outcome,
    Finalized r L (x.1.intent plan) x.2 x.2.persist c₀ outcome c ∧
      (answer = none → outcome = .ok ())

lemma Published.stable {updated : List (FakeEntry × FakeMutation)} {answer : Option Error} :
    Stable bookkeeping (Published r L c₀ plan updated answer) := fun h hc x hx hr => by
  obtain ⟨outcome, hf, ha⟩ := hc x hx hr
  exact ⟨outcome, Finalized.stable h hf, ha⟩

lemma quiet_commitUpdated {updated : List (FakeEntry × FakeMutation)}
    (h : Distinct L (updated.map Prod.fst))
    (hc : ∀ x ∈ updated, x.1.ref.resource = r → Reached r L c₀ plan x.1 x.2 c) :
    EngineQuiet F i m r (commitUpdated (fakeBackend caps) updated)
      (Published r L c₀ plan updated) c := by
  induction updated generalizing c with
  | nil => exact quiet_pure Published.stable fun x hx => absurd hx (by simp)
  | cons x rest ih =>
      obtain ⟨e, mutation⟩ := x
      have hon := h.on e (by simp)
      have hnodup := h.nodup
      simp only [List.map_cons, List.nodup_cons, List.map_map] at hnodup
      have hrest : Distinct L (rest.map Prod.fst) :=
        ⟨fun y hy => h.on y (List.mem_cons_of_mem e hy), by rw [List.map_map]; exact hnodup.2⟩
      unfold commitUpdated
      by_cases hr : e.ref.resource = r
      · have hnone : r ∉ rest.map (·.1.ref.resource) := hr ▸ hnodup.1
        have hreached := hc (e, mutation) List.mem_cons_self hr
        have hcon : (e.intent plan).On r L := by
          subst hr
          exact ⟨hon.old.lease, hon.old.resource, hon.old.identity⟩
        have href : e.ref = ⟨L, r⟩ := hr ▸ hon.ref_eq
        rw [href]
        refine quiet_bind (quiet_commitVerified hcon hreached.stands) fun outcome d hd => ?_
        -- The rest of the loop works on other resources.
        have htail : EngineQuiet F i m r (commitUpdated (fakeBackend caps) rest)
            (fun _ => Finalized r L (e.intent plan) mutation mutation.persist c₀ outcome) d :=
          (performs (k := fun y : FakeEntry × FakeMutation => y.1.ref.resource)
            commitUpdated_performs (fun y hy =>
              (hrest.on _ (List.mem_map_of_mem hy)).ref_eq ▸ engineOn_commitVerified _)
            hnodup.2 (P := Finalized r L (e.intent plan) mutation mutation.persist c₀ outcome)
            (Q := fun _ => False) Finalized.stable (fun _ h => h)
            (fun y hy hyr => absurd (List.mem_map.mpr ⟨y, hy, hyr⟩) hnone) hd).mono
            fun _ _ hu => hu.2 hnone
        have hdone : ∀ {answer : Option Error} {u : Cell}, (answer = none → outcome = .ok ()) →
            Finalized r L (e.intent plan) mutation mutation.persist c₀ outcome u →
            Published r L c₀ plan ((e, mutation) :: rest) answer u := by
          intro answer u ha hu y hy hyr
          rcases List.mem_cons.mp hy with rfl | hy
          · exact ⟨outcome, hu, ha⟩
          · exact absurd (List.mem_map.mpr ⟨y, hy, hyr⟩) hnone
        cases outcome with
        | ok _ => exact htail.mono fun _ _ hu => hdone (fun _ => rfl) hu
        | error error =>
            exact quiet_bind htail fun _ u hu => quiet_pure Published.stable (hdone (by simp) hu)
      · rw [hon.ref_eq]
        refine other (engineOn_commitVerified _) hr fun outcome d hd => ?_
        have hrest' := ih hrest (c := d) fun y hy hyr =>
          Reached.stable hd (hc y (List.mem_cons_of_mem _ hy) hyr)
        have hdone : ∀ {answer : Option Error} {u : Cell}, Published r L c₀ plan rest answer u →
            Published r L c₀ plan ((e, mutation) :: rest) answer u := by
          intro answer u hu y hy hyr
          rcases List.mem_cons.mp hy with rfl | hy
          · exact absurd hyr hr
          · exact hu y hy hyr
        cases outcome with
        | ok _ => exact hrest'.mono fun _ _ hu => hdone hu
        | error error =>
            refine quiet_bind hrest' fun _ u hu => quiet_pure Published.stable (hdone ?_)
            intro y hy hyr
            obtain ⟨outcome, hf, -⟩ := hu y hy hyr
            exact ⟨outcome, hf, by simp⟩

end Quiet

end Osdns
