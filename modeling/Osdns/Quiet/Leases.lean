import Osdns.Quiet.Update
import Osdns.Faultless.Leases
import Osdns.Teardown.Partition

/-!
# Updates that nobody interferes with

A run of `transactUpdate` in the world is taken apart at its stages, and each stage is judged on
the cell of every resource.  A lease whose records are committed comes out of an update in one of
four ways: the update was refused, found nothing to do, was taken back as a whole, or was carried
out as a whole.
-/

namespace Osdns

open Interaction
open Interaction.Fallible (ask value attempt keeps_value keeps_bind IfOk ifOk_error)
open Engine

variable {r : ResourceId} {L : LeaseId} {c d : Cell} {w w' u v : World}
variable {F : Faults} {i : SessionId} {m : ManagerId} {caps : Capabilities} {α β : Type}
variable {plan : NormalizedConfig} {refs : List LiveRef} {entries : List FakeEntry}

/-! ## What an update leaves of a record -/

/-- The evidence a live record has for the native state, published or still to be published. -/
def LiveRecord.vouched (live : FakeLive) : Option FakeSnapshot :=
  match live.state with
  | .committed => live.record.applied
  | .verified mutation => some mutation.persist
  | _ => none

/-- The resource has the content it had, and its record is over the same `before` and for the same
plan; evidence that was current is so again. -/
structure Withdrawn (r : ResourceId) (L : LeaseId) (c d : Cell) : Prop where
  state : d.state = c.state
  record : ∀ live, c.live L = some live → ∃ live', d.live L = some live' ∧
    live'.record.before = live.record.before ∧ live'.record.desired = live.record.desired ∧
      (live.record.applied = c.snapshot r → live'.record.applied = d.snapshot r)

/-- The plan was merged onto the content the resource had, and its record is for the plan, over
the same `before` and with evidence for the new content. -/
structure CarriedOut (r : ResourceId) (L : LeaseId) (plan : NormalizedConfig) (c d : Cell) : Prop where
  content : ∃ old, c.state = some old ∧ d.state = some (mergeState old plan)
  record : ∀ live, c.live L = some live → ∃ live', d.live L = some live' ∧
    live'.record.before = live.record.before ∧ live'.record.desired = plan ∧
      live'.vouched = d.snapshot r

/-- The record is published as applied. -/
def JournaledApplied (L : LeaseId) (d : Cell) : Prop :=
  ∃ record, d.live L = some ⟨record, .committed⟩ ∧ record.phase = .applied ∧
    d.record L = some record

/-- The content of the resource matches the plan. -/
def Matches (plan : NormalizedConfig) (c : Cell) : Prop :=
  ∃ state, c.state = some state ∧ stateMatches state plan = true

/-- The ways out of an update. -/
inductive UpdateEnd (F : Faults) (L : LeaseId) (plan : NormalizedConfig) (refs : List LiveRef)
    (w w' : World) : Except Error Unit → Prop
  /-- It was refused before anything was done. -/
  | refused (error : Error) (h : w.Alike w') : UpdateEnd F L plan refs w w' (.error error)
  /-- Everything matched the plan. -/
  | already (h : w.Alike w')
      (hfound : ∀ ref ∈ refs, ∃ record, (w.cells ref.resource).live L = some ⟨record, .committed⟩ ∧
        record.applied = (w.cells ref.resource).snapshot ref.resource ∧ record.phase = .applied)
      (hmatches : ∀ ref ∈ refs, Matches plan (w.cells ref.resource)) :
      UpdateEnd F L plan refs w w' (.ok ())
  /-- It failed, and was taken back if the compensating calls went through. -/
  | withdrawn (error : Error) (h : Gentle F → ∀ ref ∈ refs,
      Withdrawn ref.resource L (w.cells ref.resource) (w'.cells ref.resource)) :
      UpdateEnd F L plan refs w w' (.error error)
  /-- It was carried out, and published if it succeeded. -/
  | carriedOut (answer : Except Error Unit)
      (h : ∀ ref ∈ refs,
        CarriedOut ref.resource L plan (w.cells ref.resource) (w'.cells ref.resource))
      (hjournaled : answer = .ok () → ∀ ref ∈ refs, JournaledApplied L (w'.cells ref.resource))
      (hdiffers : ¬ ∀ ref ∈ refs, Matches plan (w.cells ref.resource)) :
      UpdateEnd F L plan refs w w' answer

/-- The plan is in effect, and the record vouches for it over the same `before`. -/
structure InForce (r : ResourceId) (L : LeaseId) (plan : NormalizedConfig) (c d : Cell) : Prop where
  matches_plan : Matches plan d
  record : ∀ live, c.live L = some live → ∃ record, d.live L = some ⟨record, .committed⟩ ∧
    record.phase = .applied ∧ record.before = live.record.before ∧ record.applied = d.snapshot r

/-- The record asks for the plan. -/
def AsksFor (L : LeaseId) (plan : NormalizedConfig) (c : Cell) : Prop :=
  ∃ live, c.live L = some live ∧ live.record.desired = plan

lemma CarriedOut.inForce (h : CarriedOut r L plan c d) (hs : JournaledApplied L d) :
    InForce r L plan c d := by
  obtain ⟨old, -, hnew⟩ := h.content
  refine ⟨⟨_, hnew, stateMatches_mergeState old plan⟩, fun live hl => ?_⟩
  obtain ⟨live', hlive', hb, -, hv⟩ := h.record live hl
  obtain ⟨record, hlive, hphase, -⟩ := hs
  obtain rfl := Option.some.inj (hlive'.symm.trans hlive)
  exact ⟨record, hlive, hphase, hb, hv⟩

lemma Alike.withdrawn (h : Alike c d) : Withdrawn r L c d :=
  ⟨h.state, fun live hl => ⟨live, (congrFun h.live L).trans hl, rfl, rfl, fun ha =>
    ha.trans h.snapshot.symm⟩⟩

section Alike

variable {c' d' : Cell}

lemma Withdrawn.alike (h : Withdrawn r L c d) (hc : Alike c' c) (hd : Alike d d') :
    Withdrawn r L c' d' := by
  refine ⟨hd.state.trans (h.state.trans hc.state), fun live hl => ?_⟩
  obtain ⟨live', hlive, hb, hp, ha⟩ := h.record live ((congrFun hc.live L).trans hl)
  exact ⟨live', (congrFun hd.live L).trans hlive, hb, hp, fun h =>
    (ha (h.trans hc.snapshot.symm)).trans hd.snapshot.symm⟩

lemma CarriedOut.alike (h : CarriedOut r L plan c d) (hc : Alike c' c) (hd : Alike d d') :
    CarriedOut r L plan c' d' := by
  obtain ⟨old, hold, hnew⟩ := h.content
  refine ⟨⟨old, hc.state.symm.trans hold, hd.state.trans hnew⟩, fun live hl => ?_⟩
  obtain ⟨live', hlive, hb, hp, ha⟩ := h.record live ((congrFun hc.live L).trans hl)
  exact ⟨live', (congrFun hd.live L).trans hlive, hb, hp, ha.trans hd.snapshot.symm⟩

lemma JournaledApplied.alike (h : JournaledApplied L d) (hd : Alike d d') : JournaledApplied L d' := by
  obtain ⟨record, hlive, hphase, hr⟩ := h
  exact ⟨record, (congrFun hd.live L).trans hlive, hphase, (Alike.record hd).trans hr⟩

lemma Alike.matches_iff (h : Alike c d) : Matches plan d ↔ Matches plan c := by
  simp only [Matches, h.state]

lemma UpdateEnd.alike {answer : Except Error Unit} (h : UpdateEnd F L plan refs u v answer)
    (hw : w.Alike u) (hw' : v.Alike w') : UpdateEnd F L plan refs w w' answer := by
  cases h with
  | refused error h => exact .refused error ((hw.trans h).trans hw')
  | already h hfound hmatches =>
      refine .already ((hw.trans h).trans hw') (fun ref href => ?_) fun ref href =>
        (hw ref.resource).matches_iff.mp (hmatches ref href)
      obtain ⟨record, hlive, happlied, hphase⟩ := hfound ref href
      exact ⟨record, (congrFun (hw ref.resource).live L).symm.trans hlive,
        happlied.trans (hw ref.resource).snapshot, hphase⟩
  | withdrawn error h =>
      exact .withdrawn error fun hF ref href =>
        (h hF ref href).alike (hw ref.resource) (hw' ref.resource)
  | carriedOut answer h hjournaled hdiffers =>
      refine .carriedOut _ (fun ref href => (h ref href).alike (hw ref.resource) (hw' ref.resource))
        (fun ha ref href => (hjournaled ha ref href).alike (hw' ref.resource)) fun hall => ?_
      exact hdiffers fun ref href => (hw ref.resource).matches_iff.mpr (hall ref href)

end Alike

/-! ## Stages of an update -/

/-- The records of the lease when the update starts: committed, with evidence. -/
structure CommittedOn (r : ResourceId) (L : LeaseId) (record : FakeRecord) (p : FakeSnapshot)
    (c : Cell) : Prop where
  live : c.live L = some ⟨record, .committed⟩
  applied : record.applied = some p
  of : p.Of r
  phase : record.phase = .applied

lemma World.alike_fire {point : TxPoint} {answer : Except Error Unit} (hw : w.Labelled)
    (h : (fire point : Engine FakeSnapshotData FakeIdentity _).Runs (World.engineHandler F i m) w
      answer u) : u.Labelled ∧ w.Alike u := by
  have hp : (fire point : Engine FakeSnapshotData FakeIdentity _).Keeps (provenance i anyOrigin)
      fun _ => True := (keeps_fire _).mono fun _ _ => trivial
  obtain ⟨hu, -, hcells⟩ := hw.runs_engine hp h
  exact ⟨hu, fun r => hcells r (fun _ d => Osdns.Alike (w.cells r) d)
    (quiet_fire (k := pure) fun d answer hd _ => quiet_pure (fun h hs => Osdns.Alike.trans hs h) hd)⟩

lemma keeps_mutateAll (entries : List FakeEntry) (he : EntriesFrom anyOrigin entries) :
    (mutateAll (fakeBackend caps) plan entries).run.Keeps (provenance i anyOrigin)
      (IfOk (UpdatedFrom anyOrigin)) := by
  refine keeps_bind (keeps_prepareAll he) (fun _ _ => ?_) fun _ => ifOk_error
  refine keeps_bind (keeps_ask (keeps_fire _)) (fun _ _ => ?_) fun _ => ifOk_error
  exact keeps_mutateUpdated (⟨rfl, rfl⟩) (by simp [UpdatedFrom]) he

lemma keeps_publishUpdate {updated : List (FakeEntry × FakeMutation)}
    (h : UpdatedFrom anyOrigin updated) :
    (publishUpdate (fakeBackend caps) updated).run.Keeps (provenance i anyOrigin)
      fun _ => True := by
  refine keeps_value (keeps_commitUpdated (⟨rfl, rfl⟩) h) fun answer _ => ?_
  match answer with
  | some error => exact .done trivial
  | none => exact (keeps_ask (keeps_fire _)).mono fun _ _ => trivial

namespace Quiet

lemma quiet_mutateAll {c₀ : Cell} (h : Distinct L entries)
    (hsound : ∀ e ∈ entries, e.ref.resource = r → Sound r e)
    (hc : Each r entries (Waiting r L c₀) c) :
    EngineQuiet F i m r (mutateAll (fakeBackend caps) plan entries).run
      (MovedAll F r L c₀ plan entries) c := by
  have hpreparing : Preparing r L c₀ plan entries entries c := fun e he hr =>
    ⟨fun _ => hc e he hr, fun hn => absurd he hn⟩
  refine Fallible.sat_bind (quiet_prepareAll h hsound (fun _ h => h) (.of_map _ h.nodup) hpreparing)
    (fun _ d hd => ?_) fun error d hd => quiet_pure MovedAll.stable fun _ => hd
  refine quiet_fire fun u answer hu hanswer => ?_
  match answer with
  | .error error =>
      refine quiet_pure MovedAll.stable fun hF => ?_
      exact absurd (hanswer.resolve_left (by simp)) (hF.fire _)
  | .ok _ =>
      exact quiet_mutateUpdated h hsound rfl
        ⟨fun x hx => absurd hx (by simp), fun e he hr => (hd e he hr).alike hu⟩

lemma quiet_publishUpdate {c₀ : Cell} {updated : List (FakeEntry × FakeMutation)}
    (h : Distinct L (updated.map Prod.fst))
    (hc : ∀ x ∈ updated, x.1.ref.resource = r → Reached r L c₀ plan x.1 x.2 c) :
    EngineQuiet F i m r (publishUpdate (fakeBackend caps) updated).run
      (fun answer d => ∃ error, Published r L c₀ plan updated error d ∧
        (answer = .ok () → error = none)) c := by
  have hstable : ∀ {answer : Except Error Unit}, Stable bookkeeping fun d =>
      ∃ error, Published r L c₀ plan updated error d ∧ (answer = .ok () → error = none) :=
    fun h ⟨error, hd, ha⟩ => ⟨error, Published.stable h hd, ha⟩
  refine Fallible.sat_value (quiet_commitUpdated h hc) fun answer d hd => ?_
  match answer with
  | some error => exact quiet_pure hstable ⟨_, hd, fun h => absurd h (by simp)⟩
  | none =>
      exact quiet_fire (k := pure) fun u answer hu _ =>
        quiet_pure hstable ⟨none, Published.stable hu hd, fun _ => rfl⟩

variable {e : FakeEntry} {mutation : FakeMutation}

/-- The entry as it was found in `c`. -/
structure FoundIn (e : FakeEntry) (L : LeaseId) (c : Cell) : Prop where
  live : c.live L = some ⟨e.old, .committed⟩
  snapshot : c.snapshot e.ref.resource = some e.applied
  sound : Sound e.ref.resource e

lemma FoundIn.withdrawn (h : FoundIn e L c) (hd : TakenBack e.ref.resource L c e d) :
    Withdrawn e.ref.resource L c d := by
  obtain ⟨q, state, hs, hq, -⟩ := hd
  refine ⟨?_, fun live hl => ⟨_, hs.live_eq, ?_⟩⟩
  · rw [(Cell.snapshot_eq_some hs.snapshot).2.1, (Cell.snapshot_eq_some h.snapshot).2.1, hq]
  · obtain rfl := Option.some.inj (h.live.symm.trans hl)
    exact ⟨rfl, rfl, fun _ => hs.snapshot.symm⟩

lemma FoundIn.carriedOut {outcome : Except Error Unit} (h : FoundIn e L c)
    (hcontent : mutation.persist.data.state = mergeState e.applied.data.state plan)
    (hd : Finalized e.ref.resource L (e.intent plan) mutation mutation.persist c outcome d) :
    CarriedOut e.ref.resource L plan c d ∧ (outcome = .ok () → JournaledApplied L d) := by
  have hout : ∀ {live' : FakeLive}, Stands e.ref.resource L c live' mutation.persist d →
      live'.record.before = e.old.before → live'.record.desired = plan →
      live'.vouched = some mutation.persist → CarriedOut e.ref.resource L plan c d := by
    intro live' hs hb hp hv
    refine ⟨⟨_, (Cell.snapshot_eq_some h.snapshot).2.1, ?_⟩, fun live hl =>
      ⟨live', hs.live_eq, ?_, hp, hv.trans hs.snapshot.symm⟩⟩
    · rw [(Cell.snapshot_eq_some hs.snapshot).2.1, hcontent]
    · obtain rfl := Option.some.inj (h.live.symm.trans hl)
      exact hb
  rcases hd with ⟨rfl, hrecord, hs⟩ | ⟨⟨error, rfl⟩, hs⟩
  · exact ⟨hout hs rfl rfl rfl, fun _ => ⟨_, hs.live_eq, rfl, hrecord⟩⟩
  · exact ⟨hout hs rfl rfl rfl, fun h => absurd h (by simp)⟩

/-- An update that found its entries and has something to do. -/
lemma runs_mutateAll {answer : Except Error Unit} (hu : u.Labelled) (hw : w.Alike u)
    (he : EntriesFrom anyOrigin entries) (h : Distinct L entries)
    (hfound : ∀ e ∈ entries, FoundIn e L (w.cells e.ref.resource))
    (hdiffers : ¬ ∀ e ∈ entries, Matches plan (w.cells e.ref.resource))
    (hrun : (do
        let updated ← mutateAll (fakeBackend caps) plan entries
        publishUpdate (fakeBackend caps) updated :
          EngineResult FakeSnapshotData FakeIdentity Unit).run.Runs (World.engineHandler F i m) u
      answer w') : UpdateEnd F L plan (entries.map (·.ref)) w w' answer := by
  have hsound : ∀ r, ∀ e ∈ entries, e.ref.resource = r → Sound r e := fun r e hx hr =>
    hr ▸ (hfound e hx).sound
  have hwaiting : ∀ r, Each r entries (Waiting r L (w.cells r)) (u.cells r) := by
    rintro _ e hx rfl
    exact ⟨(congrFun (hw _).live L).trans (hfound e hx).live,
      (hw _).snapshot.trans (hfound e hx).snapshot, fun identity hs =>
        ((hw _).status identity).trans hs⟩
  rcases Fallible.runs_bind.mp hrun with ⟨updated, v, hmutate, hpublish⟩ | ⟨error, hmutate, rfl⟩
  · obtain ⟨hv, hupdated, hcells⟩ := hu.runs_engine (keeps_mutateAll entries he) hmutate
    have hmoved : ∀ r, updated.map Prod.fst = entries ∧
        Moving r L (w.cells r) plan updated [] (v.cells r) := fun r =>
      hcells r _ (quiet_mutateAll h (hsound r) (hwaiting r))
    obtain ⟨-, -, hcells'⟩ := hv.runs_engine (keeps_publishUpdate (hupdated _ rfl)) hpublish
    have hend : ∀ e ∈ entries, CarriedOut e.ref.resource L plan (w.cells e.ref.resource)
        (w'.cells e.ref.resource) ∧ (answer = .ok () → JournaledApplied L (w'.cells e.ref.resource)) := by
      intro e hx
      obtain ⟨hfst, hmoving⟩ := hmoved e.ref.resource
      obtain ⟨⟨e', mutation⟩, hmem, rfl⟩ := List.mem_map.mp (hfst ▸ hx)
      have hreached := hmoving.reached _ hmem rfl
      obtain ⟨error, hpublished, hanswer⟩ := hcells' e'.ref.resource _
        (quiet_publishUpdate (hfst ▸ h) hmoving.reached)
      obtain ⟨outcome, hf, houtcome⟩ := hpublished _ hmem rfl
      obtain ⟨hout, hjournaled⟩ := (hfound _ hx).carriedOut hreached.content hf
      exact ⟨hout, fun ha => hjournaled (houtcome (hanswer ha))⟩
    refine .carriedOut answer (fun ref href => ?_) (fun ha ref href => ?_) fun hall => ?_
    · obtain ⟨e, hx, rfl⟩ := List.mem_map.mp href
      exact (hend e hx).1
    · obtain ⟨e, hx, rfl⟩ := List.mem_map.mp href
      exact (hend e hx).2 ha
    · exact hdiffers fun e hx => hall _ (List.mem_map_of_mem hx)
  · obtain ⟨-, -, hcells⟩ := hu.runs_engine (keeps_mutateAll entries he) hmutate
    refine .withdrawn error fun hF ref href => ?_
    obtain ⟨e, hx, rfl⟩ := List.mem_map.mp href
    exact (hfound e hx).withdrawn (hcells _ _
      (quiet_mutateAll h (hsound e.ref.resource) (hwaiting _)) hF e hx rfl)

/-- A run of `transactUpdate` over committed records. -/
lemma runs_transactUpdate {answer : Except Error Unit} (hw : w.Labelled) (hrefs : Refs L refs)
    (hc : ∀ ref ∈ refs, ∃ record p, CommittedOn ref.resource L record p (w.cells ref.resource))
    (hrun : (transactUpdate (fakeBackend caps) refs plan).run.Runs (World.engineHandler F i m) w
      answer w') : UpdateEnd F L plan refs w w' answer := by
  rcases Fallible.runs_bind.mp hrun with ⟨_, u, hfire, hrun⟩ | ⟨error, hfire, rfl⟩
  swap
  · exact .refused error (World.alike_fire hw hfire).2
  obtain ⟨hu, hwu⟩ := World.alike_fire hw hfire
  have hcommitted : ∀ r, r ∈ refs.map (·.resource) →
      ∃ record, (u.cells r).live L = some ⟨record, .committed⟩ := by
    intro r hr
    obtain ⟨ref, href, rfl⟩ := List.mem_map.mp hr
    obtain ⟨record, p, hcom⟩ := hc ref href
    exact ⟨record, (congrFun (hwu _).live L).trans hcom.live⟩
  rcases Fallible.runs_bind.mp hrun with ⟨entries, v, hresolve, hrun⟩ | ⟨error, hresolve, rfl⟩
  swap
  · obtain ⟨-, -, hcells⟩ := hu.runs_engine (keeps_resolveAll ⟨rfl, rfl⟩ refs) hresolve
    exact .refused error fun r =>
      (hwu r).trans (hcells r _ (quiet_resolveAll hrefs (hcommitted r))).alike
  obtain ⟨hv, hentries, hcells⟩ := hu.runs_engine (keeps_resolveAll ⟨rfl, rfl⟩ refs) hresolve
  replace hentries : EntriesFrom anyOrigin entries := hentries _ rfl
  have hfoundAll := fun r => hcells r _ (quiet_resolveAll hrefs (hcommitted r))
  have hwv : w.Alike v := fun r => (hwu r).trans (hfoundAll r).alike
  have heq : entries.map (·.ref) = refs := (hfoundAll .loopback).refs entries rfl
  have hon : ∀ e ∈ entries, e.On L := fun e hx => by
    have hlease : e.ref.lease = L := hrefs.lease _ (heq ▸ List.mem_map_of_mem hx)
    exact ⟨hlease, hlease ▸ (hentries e hx).old.on⟩
  have hdistinct := hrefs.distinct hon heq
  have hfound : ∀ e ∈ entries, (w.cells e.ref.resource).live L = some ⟨e.old, .committed⟩ ∧
      Sound e.ref.resource e := by
    intro e hx
    obtain ⟨hlive, happlied⟩ := (hfoundAll e.ref.resource).found entries rfl e hx rfl
    obtain ⟨record, p, hcom⟩ := hc _ (heq ▸ List.mem_map_of_mem hx)
    have hlive' := (congrFun (hwu e.ref.resource).live L).symm.trans hlive
    obtain ⟨rfl, -⟩ := LiveRecord.mk.inj (Option.some.inj (hcom.live.symm.trans hlive'))
    obtain rfl := Option.some.inj (hcom.applied.symm.trans happlied)
    exact ⟨hlive', hcom.of, happlied, hcom.phase⟩
  have hof : ∀ r, ∀ e ∈ entries, e.ref.resource = r → e.applied.Of r := fun r e hx hr =>
    hr ▸ (hfound e hx).2.of
  rcases Fallible.runs_bind.mp hrun with ⟨_, x, hverify, hrun⟩ | ⟨error, hverify, rfl⟩
  swap
  · obtain ⟨-, -, hcells⟩ := hv.runs_engine (keeps_verifyOwnership entries) hverify
    exact .refused error fun r => (hwv r).trans (hcells r _ (quiet_verifyOwnership hon (hof r))).1
  obtain ⟨hx, -, hcells⟩ := hv.runs_engine (keeps_verifyOwnership entries) hverify
  have hchecked := fun r => hcells r _ (quiet_verifyOwnership hon (hof r))
  have hwx : w.Alike x := fun r => (hwv r).trans (hchecked r).1
  have hfoundIn : ∀ e ∈ entries, FoundIn e L (w.cells e.ref.resource) := fun e hx =>
    ⟨(hfound e hx).1, (hwx _).snapshot.symm.trans ((hchecked _).2 rfl e hx rfl), (hfound e hx).2⟩
  have hmatches : ∀ e ∈ entries, (fakeBackend caps).matchesDesired e.applied plan = true ↔
      Matches plan (w.cells e.ref.resource) := by
    intro e hx
    rw [fakeBackend_matchesDesired (hof _ e hx rfl)]
    have hstate := (Cell.snapshot_eq_some (hfoundIn e hx).snapshot).2.1
    exact ⟨fun h => ⟨_, hstate, h⟩, fun ⟨state, hs, h⟩ =>
      Option.some.inj (hs.symm.trans hstate) ▸ h⟩
  split at hrun
  · rename_i hall
    rw [List.all_eq_true] at hall
    obtain ⟨-, hxw'⟩ := World.alike_fire hx hrun
    match answer with
    | .error error => exact .refused error (hwx.trans hxw')
    | .ok _ =>
        refine .already (hwx.trans hxw') (fun ref href => ?_) fun ref href => ?_ <;>
          obtain ⟨e, hmem, rfl⟩ := List.mem_map.mp (heq ▸ href)
        · have hin := hfoundIn e hmem
          exact ⟨e.old, hin.live, hin.sound.applied.trans hin.snapshot.symm, hin.sound.phase⟩
        · exact (hmatches e hmem).mp (hall e hmem)
  · rename_i hall
    rw [List.all_eq_true] at hall
    rw [← heq]
    exact runs_mutateAll hx hwx hentries hdistinct hfoundIn
      (fun h => hall fun e hmem => (hmatches e hmem).mpr (h e hmem)) hrun

end Quiet

/-! ## Calls besides the transaction -/

/-- The calls of an update besides its transaction: reads and bookkeeping. -/
def ManagerOp.isInert {D I : Type} : ManagerOp D I → Bool
  | .engine (.resourceStatus _ _) => true
  | .engine (.liveGet _) => true
  | o => o.isQuiet

lemma Cell.handler_inert {o : ManagerOp FakeSnapshotData FakeIdentity}
    {answer : ManagerRet FakeSnapshotData FakeIdentity o}
    (h : Cell.handler F i m r o c answer d) (ho : o.isInert = true) : Alike c d := by
  by_cases ht : o.target = some r
  swap
  · exact .pending (Cell.handler_elsewhere h ht).1
  unfold Cell.handler at h
  rw [if_pos ht] at h
  obtain ⟨now, token, fate, -, hx⟩ := h
  have hbook : ∀ token pending breaker sections,
      Alike c { c with token, pending, breaker, sections } :=
    fun _ _ _ _ => ⟨⟨rfl, rfl, rfl, rfl, rfl, rfl, rfl, rfl, rfl⟩, rfl, rfl⟩
  cases o with
  | engine o =>
      cases o with
      | resourceStatus =>
          cases fate <;> simp only [Cell.exec, Cell.execEngine, Option.some.injEq,
            Prod.mk.injEq] at hx <;> obtain ⟨-, rfl⟩ := hx <;> exact .refl c
      | liveGet =>
          simp only [Cell.exec, Cell.execEngine, Option.map_eq_some_iff, Prod.mk.injEq] at hx
          obtain ⟨live, -, -, rfl⟩ := hx
          exact .refl c
      | fire | journalRecords | newLeaseId => cases ht
      | _ => exact absurd ho (by simp [ManagerOp.isInert, ManagerOp.isQuiet])
  | tokenGet resource =>
      simp only [Cell.exec] at hx
      split at hx <;> simp only [Option.some.injEq, Prod.mk.injEq] at hx <;>
        obtain ⟨-, rfl⟩ := hx
      · exact .refl c
      · exact hbook _ _ _ _
  | acquire | tryAcquire | release | activeInsert | activeRemove =>
      exact absurd ho (by simp [ManagerOp.isInert, ManagerOp.isQuiet])
  | resolveResources | tokenLock | tokenUnlock | gateLock | gateUnlock | sleep | enforceEnsure |
      enforceRelease | rescanEnforce => cases ht
  | _ =>
      simp only [Cell.exec, Option.some.injEq, Prod.mk.injEq] at hx
      obtain ⟨-, rfl⟩ := hx
      exact hbook _ _ _ _

/-- The program reads and keeps books. -/
abbrev Inert (p : FakeManaged α) : Prop := p.Only (fun _ _ => True) fun o => o.isInert = true

lemma Inert.runs {p : FakeManaged α} {a : α} (hp : Inert p) (hw : w.Labelled)
    (hrun : p.Runs (World.handler F i m) w a w') : w.Alike w' := by
  induction p generalizing w with
  | done b =>
      obtain ⟨rfl, rfl⟩ := hrun
      exact .refl w'
  | call o k ih =>
      obtain ⟨answer, u, ho, hk⟩ := hrun
      have hu : w.Alike u := fun r => Cell.handler_inert (hw.handler_cell ho) hp.1
      exact hu.trans (ih answer (hp.2 answer trivial) (fun r =>
        (hw r).same (hu r).live (hu r).journal) hk)

lemma inert_getTokens (resources : List ResourceId) :
    Inert (getTokens resources : FakeManaged (List Token)) := by
  induction resources with
  | nil => trivial
  | cons resource resources ih => exact ⟨rfl, fun _ _ => ih.bind fun _ => trivial⟩

lemma inert_lockTokens (tokens : List Token) : Inert (lockTokens tokens : FakeManaged Unit) := by
  induction tokens with
  | nil => trivial
  | cons token tokens ih => exact ⟨rfl, fun _ _ => ih⟩

lemma inert_unlockTokens (tokens : List Token) :
    Inert (unlockTokens tokens : FakeManaged Unit) := by
  induction tokens with
  | nil => trivial
  | cons token tokens ih => exact ⟨rfl, fun _ _ => ih⟩

lemma inert_enterSections (refs : List LiveRef) : Inert (enterSections refs : FakeManaged Unit) := by
  induction refs with
  | nil => trivial
  | cons ref refs ih => exact ⟨rfl, fun _ _ => ih⟩

lemma inert_leaveSections (refs : List LiveRef) : Inert (leaveSections refs : FakeManaged Unit) := by
  induction refs with
  | nil => trivial
  | cons ref refs ih => exact ⟨rfl, fun _ _ => ih⟩

lemma inert_allRegistered (refs : List LiveRef) :
    Inert (allRegistered refs : FakeManaged Bool) := by
  induction refs with
  | nil => trivial
  | cons ref refs ih =>
      refine ⟨rfl, fun answer _ => ?_⟩
      match answer with
      | some _ => exact ih
      | none => trivial

lemma inert_checkIdentities {M : FakeManager} (refs : List LiveRef) :
    Inert (checkIdentities M refs : ManagedResult FakeSnapshotData FakeIdentity Unit).run := by
  induction refs with
  | nil => trivial
  | cons ref refs ih =>
      refine ⟨rfl, fun live _ => ⟨rfl, fun answer _ => ?_⟩⟩
      match answer with
      | .error error => trivial
      | .ok .same => exact ih
      | .ok .gone => trivial
      | .ok .replaced => trivial
      | .ok .ambiguous => trivial

/-! ## Lease::update -/

lemma World.Alike.labelled (h : w.Alike u) (hw : w.Labelled) : u.Labelled := fun r =>
  (hw r).same (h r).live (h r).journal

lemma runs_updateLocked {M : FakeManager} {owned : List ResourceId} {answer : Except Error Unit}
    (hM : M.backend = fakeBackend caps) (hw : w.Labelled) (hrefs : Refs L refs)
    (hc : ∀ ref ∈ refs, ∃ record p, CommittedOn ref.resource L record p (w.cells ref.resource))
    (hrun : (updateLocked M refs owned plan).run.Runs (World.handler F i m) w answer w') :
    UpdateEnd F L plan refs w w' answer := by
  unfold updateLocked at hrun
  rw [hM] at hrun
  obtain ⟨tokens, u₁, h₁, hrun⟩ := Fallible.runs_value.mp hrun
  have hu₁ := (inert_getTokens owned).runs hw h₁
  obtain ⟨_, u₂, h₂, hrun⟩ := Fallible.runs_value.mp hrun
  have hu₂ := hu₁.trans ((inert_lockTokens tokens).runs (hu₁.labelled hw) h₂)
  obtain ⟨_, u₃, h₃, hrun⟩ := Fallible.runs_value.mp hrun
  have hu₃ := hu₂.trans ((inert_enterSections refs).runs (hu₂.labelled hw) h₃)
  obtain ⟨result, v, h₄, hrun⟩ := Fallible.runs_value.mp hrun
  have hcommitted : ∀ ref ∈ refs, ∃ record p,
      CommittedOn ref.resource L record p (u₃.cells ref.resource) := fun ref href => by
    obtain ⟨record, p, hcom⟩ := hc ref href
    exact ⟨record, p, (congrFun (hu₃ _).live L).trans hcom.live, hcom.applied, hcom.of, hcom.phase⟩
  have hend := Quiet.runs_transactUpdate (hu₃.labelled hw) hrefs hcommitted
    (World.runs_engine.mp h₄)
  have hv : v.Labelled := ((hu₃.labelled hw).runs_engine
    (keeps_transactUpdate ⟨rfl, rfl⟩ refs plan) (World.runs_engine.mp h₄)).1
  obtain ⟨_, v₁, h₅, hrun⟩ := Fallible.runs_value.mp hrun
  have hv₁ := (inert_leaveSections refs).runs hv h₅
  obtain ⟨_, v₂, h₆, hrun⟩ := Fallible.runs_value.mp hrun
  have hv₂ := hv₁.trans ((inert_unlockTokens tokens).runs (hv₁.labelled hv) h₆)
  obtain ⟨_, v₃, h₇, hrun⟩ := Fallible.runs_value.mp hrun
  have hrescan : Inert (Managed.rescanEnforce : FakeManaged Unit) := ⟨rfl, fun _ _ => trivial⟩
  have hv₃ := hv₂.trans (hrescan.runs (hv₂.labelled hv) h₇)
  obtain ⟨rfl, rfl⟩ := hrun
  exact hend.alike hu₃ hv₃

/-- The ways out of `Lease::update`: it is refused, or its transaction ends. -/
lemma runs_update {M : FakeManager} {lease : Lease} {state : LiveLease} {config : DnsConfig}
    {answer : Except Error Unit} (hM : M.backend = fakeBackend caps) (hw : w.Labelled)
    (hof : lease.Of L) (hstate : lease.state = some state)
    (hc : ∀ ref ∈ state.live, ∃ record p,
      CommittedOn ref.resource L record p (w.cells ref.resource))
    (hrun : (lease.update M config).run.Runs (World.handler F i m) w answer w') :
    (∃ error, answer = .error error ∧ w.Alike w') ∨
      ∃ plan, validateAgainst config M.backend.capabilities = .ok plan ∧
        UpdateEnd F L plan state.live w w' answer := by
  have hrefs : Refs L state.live := hof.leaseId ▸ hof.wf.refs hstate
  unfold Lease.update at hrun
  rcases Fallible.runs_bind.mp hrun with ⟨plan, u, ⟨hplan, hu⟩, hvalid⟩ | ⟨error, ⟨-, rfl⟩, rfl⟩
  swap
  · exact .inl ⟨error, rfl, .refl _⟩
  rcases Fallible.runs_bind.mp hvalid with ⟨_, v, ⟨-, hv⟩, hlive⟩ | ⟨error, ⟨-, hv⟩, rfl⟩
  swap
  · exact .inl ⟨error, rfl, hv.trans hu ▸ .refl _⟩
  rw [hstate, hv.trans hu] at hlive
  obtain ⟨registered, u₁, h₁, hrun⟩ := Fallible.runs_value.mp hlive
  have hu₁ := (inert_allRegistered state.live).runs hw h₁
  split at hrun
  · obtain ⟨rfl, rfl⟩ := hrun
    exact .inl ⟨_, rfl, hu₁⟩
  rcases Fallible.runs_bind.mp hrun with ⟨_, u₂, h₂, hrun⟩ | ⟨error, h₂, rfl⟩
  swap
  · exact .inl ⟨error, rfl, hu₁.trans ((inert_checkIdentities _).runs (hu₁.labelled hw) h₂)⟩
  have hu₂ := hu₁.trans ((inert_checkIdentities _).runs (hu₁.labelled hw) h₂)
  have hresolve : Inert (Managed.resolveResources config.scope plan : FakeManaged _) :=
    ⟨rfl, fun _ _ => trivial⟩
  rcases Fallible.runs_bind.mp hrun with ⟨wanted, u₃, h₃, hrun⟩ | ⟨error, h₃, rfl⟩
  swap
  · exact .inl ⟨error, rfl, hu₂.trans (hresolve.runs (hu₂.labelled hw) h₃)⟩
  have hu₃ := hu₂.trans (hresolve.runs (hu₂.labelled hw) h₃)
  dsimp only at hrun
  split at hrun
  · obtain ⟨rfl, rfl⟩ := hrun
    exact .inl ⟨_, rfl, hu₃⟩
  · refine .inr ⟨plan, hplan.symm, ?_⟩
    have hcommitted : ∀ ref ∈ state.live, ∃ record p,
        CommittedOn ref.resource L record p (u₃.cells ref.resource) := fun ref href => by
      obtain ⟨record, p, hcom⟩ := hc ref href
      exact ⟨record, p, (congrFun (hu₃ _).live L).trans hcom.live, hcom.applied, hcom.of,
        hcom.phase⟩
    exact (runs_updateLocked hM (hu₃.labelled hw) hrefs hcommitted hrun).alike hu₃ (.refl _)

/-- The answers of the world when the calls in `fails` fail after they took effect. -/
def World.answer (fails : ManagerOp FakeSnapshotData FakeIdentity → Bool) (i : SessionId)
    (m : ManagerId) (o : ManagerOp FakeSnapshotData FakeIdentity) (w : World) :
    Option (ManagerRet FakeSnapshotData FakeIdentity o × World) :=
  w.exec i m (if fails o then .failAfter "injected" else .proceed) o

lemma World.handler_of_answer {fails : ManagerOp FakeSnapshotData FakeIdentity → Bool}
    {o : ManagerOp FakeSnapshotData FakeIdentity}
    {answer : ManagerRet FakeSnapshotData FakeIdentity o × World}
    (h : World.answer fails i m o w = some answer) :
    World.handler (fun o => fails o = true) i m o w answer.1 answer.2 := by
  unfold World.answer at h
  split at h
  · rename_i hfails
    exact ⟨_, .inr hfails, h⟩
  · exact ⟨_, .inl rfl, h⟩

namespace System

variable {S : Setup} {s : System} {lease : Lease} {state : LiveLease}

/-- A lease over both interfaces, applied and at rest. -/
def appliedOnBoth : Option System :=
  (pristine (World.pristine bothInterfaces .empty)).performOrderly (oneAtATime .cooperative)
    [.start 0 (.apply ⟨.global, [], [], [], some true⟩), .run 0 53, .finish 0]

/-- Whether the lease 0 is idle over both interfaces with committed records. -/
def bothCommitted (s : System) : Bool :=
  decide (s.leases 0 = some (0, bothLeased)) && s.atRest &&
    [ResourceId.loopback, .ethernet].all fun r =>
      ((s.world.cells r).live 0).any fun live => decide (live.state = .committed)

lemma bothCommitted_iff (h : s.bothCommitted = true) :
    s.leases 0 = some (0, bothLeased) ∧ s.atRest = true ∧
      ∀ ref ∈ [(⟨0, .loopback⟩ : LiveRef), ⟨0, .ethernet⟩], ∃ record,
        (s.world.cells ref.resource).live 0 = some ⟨record, .committed⟩ := by
  simp only [bothCommitted, Bool.and_eq_true, decide_eq_true_eq, List.all_eq_true] at h
  refine ⟨h.1.1, h.1.2, fun ref href => ?_⟩
  have hmem : ref.resource ∈ [ResourceId.loopback, .ethernet] := by
    rcases List.mem_cons.mp href with rfl | href
    · exact List.mem_cons_self
    · obtain rfl := List.mem_singleton.mp href
      simp
  obtain ⟨⟨record, state⟩, hlive, hstate⟩ := (Option.any_eq_true _ _).mp (h.2 _ hmem)
  obtain rfl : state = .committed := of_decide_eq_true hstate
  exact ⟨record, hlive⟩

/-- The committed records of an idle lease, when nothing runs. -/
lemma committedOn (hserial : S.serial) (hfire : ¬ S.faults (.engine (.fire .afterUpdatePrepared)))
    (h : Reachable S s) (hquiet : ∀ i, s.sessions i = none)
    (hidle : s.leases L = some (m, lease)) (hstate : lease.state = some state)
    (hcommitted : ∀ ref ∈ state.live, ∃ record,
      (s.world.cells ref.resource).live L = some ⟨record, .committed⟩) :
    ∀ ref ∈ state.live, ∃ record p,
      CommittedOn ref.resource L record p (s.world.cells ref.resource) := by
  intro ref href
  obtain ⟨record, hlive⟩ := hcommitted ref href
  have hof := ((Keyed.reachable h).idle L (m, lease) hidle).2
  obtain ⟨live, hh⟩ := (SerialOn.reachable hserial hfire h).inOrder hquiet hidle hof hstate
    (List.mem_map_of_mem href)
  obtain rfl := Option.some.inj (hh.live_eq.symm.trans hlive)
  obtain ⟨hphase, p, happlied, hexpresses⟩ := hh.ok.state
  exact ⟨record, p, hlive, happlied, hexpresses.issued.of, hphase⟩

/-- An update of committed records that fails while nobody interferes and the calls that compensate
go through is all or nothing: either every resource has its old content again, or every resource
has the plan merged onto it.  Every record keeps its `before`, and its evidence is current. -/
theorem update_all_or_nothing (hserial : S.serial)
    (hfire : ¬ S.faults (.engine (.fire .afterUpdatePrepared))) (h : Reachable S s)
    (hquiet : ∀ i, s.sessions i = none) (hidle : s.leases L = some (m, lease))
    (hstate : lease.state = some state)
    (hcommitted : ∀ ref ∈ state.live, ∃ record,
      (s.world.cells ref.resource).live L = some ⟨record, .committed⟩)
    (hF : Gentle F) {config : DnsConfig} {error : Error}
    (hrun : (lease.update (S.manager m) config).run.Runs (World.handler F i m) s.world
      (.error error) w') :
    (∀ ref ∈ state.live,
        Withdrawn ref.resource L (s.world.cells ref.resource) (w'.cells ref.resource)) ∨
      ∃ plan, validateAgainst config (S.manager m).backend.capabilities = .ok plan ∧
        ∀ ref ∈ state.live,
          CarriedOut ref.resource L plan (s.world.cells ref.resource) (w'.cells ref.resource) := by
  have hof := ((Keyed.reachable h).idle L (m, lease) hidle).2
  have hw := (Labelled.reachable h).world
  rcases runs_update rfl hw hof hstate
    (committedOn hserial hfire h hquiet hidle hstate hcommitted) hrun with
    ⟨_, -, halike⟩ | ⟨plan, hplan, hend⟩
  · exact .inl fun ref _ => (halike ref.resource).withdrawn
  · generalize hanswer : (Except.error error : Except Error Unit) = answer at hend
    cases hend with
    | refused error' halike => exact .inl fun ref _ => (halike ref.resource).withdrawn
    | already => exact absurd hanswer (by simp)
    | withdrawn error' hback => exact .inl (hback hF)
    | carriedOut answer hout => exact .inr ⟨plan, hplan, hout⟩

/-- The mutation of the second interface is reported as failed. -/
def ethernetFails : ManagerOp FakeSnapshotData FakeIdentity → Bool
  | .engine (.applyGuarded _ resource _ _) => resource = .ethernet
  | _ => false

/-- An update over two interfaces whose second mutation fails after it took effect is taken back
on both. -/
theorem update_all_or_nothing_bothInterfaces : ∃ (s : System) (error : Error) (w' : World),
    s.leases 0 = some (0, bothLeased) ∧
      (bothLeased.update ((oneAtATime .cooperative).manager 0)
          ⟨.global, [], [], [], some false⟩).run.Runs
        (World.handler (fun o => ethernetFails o = true) 1 0) s.world (.error error) w' ∧
      (w'.cells .ethernet).generation ≠ (s.world.cells .ethernet).generation ∧
      ∀ ref ∈ [(⟨0, .loopback⟩ : LiveRef), ⟨0, .ethernet⟩],
        Withdrawn ref.resource 0 (s.world.cells ref.resource) (w'.cells ref.resource) := by
  have hrun : appliedOnBoth.any (fun s => s.bothCommitted &&
      ((bothLeased.update ((oneAtATime .cooperative).manager 0)
        ⟨.global, [], [], [], some false⟩).run.evaluate (World.answer ethernetFails 1 0)
          s.world).any fun result => result.1.toOption.isNone &&
            decide ((result.2.cells .ethernet).generation ≠ (s.world.cells .ethernet).generation) &&
            decide ((result.2.cells .loopback).state = some (.configured [] [] [] (some true)))) =
      true := by
    decide +kernel
  obtain ⟨s, hs, hstate⟩ := (Option.any_eq_true _ _).mp hrun
  obtain ⟨hboth, hresult⟩ := Bool.and_eq_true _ _ ▸ hstate
  obtain ⟨hidle, hrest, hcommitted⟩ := bothCommitted_iff hboth
  obtain ⟨⟨answer, w'⟩, hevaluate, hfacts⟩ := (Option.any_eq_true _ _).mp hresult
  simp only [Bool.and_eq_true, decide_eq_true_eq] at hfacts
  obtain ⟨⟨hanswer, hgeneration⟩, hcontent⟩ := hfacts
  have hreach : Reachable (oneAtATime .cooperative) s := reachable_performOrderly hs
  have hruns := Program.runs_of_evaluate (H := World.handler (fun o => ethernetFails o = true) 1 0)
    (fun _ _ _ => World.handler_of_answer) hevaluate
  cases answer with
  | ok _ => exact absurd hanswer (by simp [Except.toOption])
  | error error =>
      have hF : Gentle fun o => ethernetFails o = true :=
        ⟨fun _ => by simp [ethernetFails], fun _ => by simp [ethernetFails],
          fun _ => by simp [ethernetFails], fun _ _ _ _ => by simp [ethernetFails]⟩
      refine ⟨s, error, w', hidle, hruns, hgeneration, ?_⟩
      rcases update_all_or_nothing trivial (oneAtATime_hook _) hreach (hreach.sessions_none hrest)
        hidle rfl hcommitted hF hruns with hback | ⟨plan, hplan, hout⟩
      · exact hback
      · obtain ⟨old, -, hnew⟩ := (hout ⟨0, .loopback⟩ List.mem_cons_self).content
        obtain rfl : (⟨[], [], [], some false⟩ : NormalizedConfig) = plan := Except.ok.inj hplan
        exact absurd (hcontent.symm.trans hnew) (by cases old <;> simp [mergeState,
          NormalizedConfig.isEmpty])

/-- A successful update of committed records leaves the plan in effect everywhere, with records that
vouch for it.  What had to be changed is published; but when everything matched the plan before,
nothing is recorded, and the records go on asking for the plan they asked for. -/
theorem update_in_force (hserial : S.serial)
    (hfire : ¬ S.faults (.engine (.fire .afterUpdatePrepared))) (h : Reachable S s)
    (hquiet : ∀ i, s.sessions i = none) (hidle : s.leases L = some (m, lease))
    (hstate : lease.state = some state)
    (hcommitted : ∀ ref ∈ state.live, ∃ record,
      (s.world.cells ref.resource).live L = some ⟨record, .committed⟩)
    {config : DnsConfig}
    (hrun : (lease.update (S.manager m) config).run.Runs (World.handler F i m) s.world
      (.ok ()) w') :
    ∃ plan, validateAgainst config (S.manager m).backend.capabilities = .ok plan ∧
      (∀ ref ∈ state.live,
        InForce ref.resource L plan (s.world.cells ref.resource) (w'.cells ref.resource)) ∧
      ((¬ ∀ ref ∈ state.live, Matches plan (s.world.cells ref.resource)) →
        ∀ ref ∈ state.live, JournaledApplied L (w'.cells ref.resource)) ∧
      ((∀ ref ∈ state.live, AsksFor L plan (w'.cells ref.resource)) ↔
        ((∀ ref ∈ state.live, Matches plan (s.world.cells ref.resource)) →
          ∀ ref ∈ state.live, AsksFor L plan (s.world.cells ref.resource))) := by
  have hof := ((Keyed.reachable h).idle L (m, lease) hidle).2
  have hw := (Labelled.reachable h).world
  rcases runs_update rfl hw hof hstate
    (committedOn hserial hfire h hquiet hidle hstate hcommitted) hrun with
    ⟨_, hanswer, -⟩ | ⟨plan, hplan, hend⟩
  · exact absurd hanswer (by simp)
  refine ⟨plan, hplan, ?_⟩
  generalize hanswer : (Except.ok () : Except Error Unit) = answer at hend
  cases hend with
  | refused error halike => exact absurd hanswer (by simp)
  | withdrawn error hback => exact absurd hanswer (by simp)
  | already halike hfound hmatches =>
      have hasks : ∀ r, AsksFor L plan (w'.cells r) ↔ AsksFor L plan (s.world.cells r) := fun r => by
        simp only [AsksFor, (halike r).live]
      refine ⟨fun ref href => ⟨(halike _).matches_iff.mpr (hmatches ref href), fun live hl => ?_⟩,
        fun hn => absurd hmatches hn, ?_⟩
      · obtain ⟨record, hlive, happlied, hphase⟩ := hfound ref href
        obtain rfl := Option.some.inj (hlive.symm.trans hl)
        exact ⟨record, (congrFun (halike _).live L).trans hlive, hphase, rfl,
          happlied.trans (halike _).snapshot.symm⟩
      · simp only [hasks]
        exact ⟨fun ha _ => ha, fun ha => ha hmatches⟩
  | carriedOut answer hout hjournaled hdiffers =>
      refine ⟨fun ref href => (hout ref href).inForce (hjournaled hanswer.symm ref href),
        fun _ => hjournaled hanswer.symm, fun _ hall => absurd hall hdiffers, fun _ ref href => ?_⟩
      obtain ⟨record, hlive⟩ := hcommitted ref href
      obtain ⟨live, hlive', -, hp, -⟩ := (hout ref href).record _ hlive
      exact ⟨live, hlive', hp⟩

/-- An update that only leaves the default route open succeeds, but its plan is never recorded. -/
theorem update_in_force_unrecorded : ∃ (s : System) (w' : World),
    s.leases 0 = some (0, bothLeased) ∧
      (bothLeased.update ((oneAtATime .cooperative).manager 0) ⟨.global, [], [], [], none⟩).run.Runs
        (World.handler (fun _ => False) 1 0) s.world (.ok ()) w' ∧
      ¬ ∀ ref ∈ [(⟨0, .loopback⟩ : LiveRef), ⟨0, .ethernet⟩],
        AsksFor 0 ⟨[], [], [], none⟩ (w'.cells ref.resource) := by
  have hrun : appliedOnBoth.any (fun s => s.bothCommitted &&
      ([ResourceId.loopback, .ethernet].all fun r => decide
        ((s.world.cells r).state = some (.configured [] [] [] (some true)))) &&
      (((s.world.cells .loopback).live 0).any fun live =>
        decide (live.record.desired = ⟨[], [], [], some true⟩)) &&
      ((bothLeased.update ((oneAtATime .cooperative).manager 0)
        ⟨.global, [], [], [], none⟩).run.evaluate (World.answer (fun _ => false) 1 0)
          s.world).any fun result => result.1.toOption.isSome) = true := by
    decide +kernel
  obtain ⟨s, hs, hstate⟩ := (Option.any_eq_true _ _).mp hrun
  simp only [Bool.and_eq_true, List.all_eq_true, decide_eq_true_eq] at hstate
  obtain ⟨⟨⟨hboth, hcontent⟩, hdesired⟩, hresult⟩ := hstate
  obtain ⟨hidle, hrest, hcommitted⟩ := bothCommitted_iff hboth
  obtain ⟨⟨answer, w'⟩, hevaluate, hanswer⟩ := (Option.any_eq_true _ _).mp hresult
  have hreach : Reachable (oneAtATime .cooperative) s := reachable_performOrderly hs
  have hruns := Program.runs_of_evaluate (H := World.handler (fun _ => False) 1 0)
    (fun _ _ _ h => by simpa using World.handler_of_answer h) hevaluate
  cases answer with
  | error error => exact absurd hanswer (by simp [Except.toOption])
  | ok _ =>
      refine ⟨s, w', hidle, hruns, fun hasks => ?_⟩
      obtain ⟨plan, hplan, -, -, hiff⟩ := update_in_force trivial (oneAtATime_hook _) hreach
        (hreach.sessions_none hrest) hidle rfl hcommitted hruns
      obtain rfl : (⟨[], [], [], none⟩ : NormalizedConfig) = plan := Except.ok.inj hplan
      have hmatches : ∀ ref ∈ [(⟨0, .loopback⟩ : LiveRef), ⟨0, .ethernet⟩],
          Matches ⟨[], [], [], none⟩ (s.world.cells ref.resource) := by
        intro ref href
        refine ⟨_, hcontent ref.resource ?_, by decide⟩
        rcases List.mem_cons.mp href with rfl | href
        · exact List.mem_cons_self
        · obtain rfl := List.mem_singleton.mp href
          simp
      obtain ⟨live, hlive, hnone⟩ := hiff.mp hasks hmatches ⟨0, .loopback⟩ List.mem_cons_self
      obtain ⟨live', hlive', hsome⟩ := (Option.any_eq_true _ _).mp hdesired
      obtain rfl := Option.some.inj (hlive.symm.trans hlive')
      exact absurd (hnone.symm.trans (of_decide_eq_true hsome)) (by decide)

end System

end Osdns
