import Osdns.Recovery.Stale

/-!
# The specification of stale recovery

`recoverStale` over a readable journal: every run of it recovers each record of the store by
itself, the journal stays readable, and a second run finds what the first one left.
-/

namespace Osdns

open Interaction
open Interaction.Fallible (ask value attempt)

variable {F : Faults} {caps : Capabilities} {policy : ConflictPolicy} {owner : String}
variable {r : ResourceId} {ctx : Context} {i : SessionId} {m : ManagerId}
variable {c d e : Cell} {x : FakeRecord} {w w' : World}

/-! ## The store -/

/-- A journal that `JournalStore::records` accepts: every record is filed under its lease and
resource, and no resource has two. -/
structure World.Readable (w : World) : Prop where
  once : (w.records.map (·.resource)).Nodup
  filed : ∀ r ∈ w.names, ∀ L x, (w.cells r).record L = some x → Filed r L x

lemma Cell.mem_records {x : FakeRecord} :
    x ∈ c.journal.entries.map Sigma.snd ↔ ∃ L, c.record L = some x := by
  simp only [List.mem_map, Cell.record]
  constructor
  · rintro ⟨⟨L, y⟩, hy, rfl⟩
    exact ⟨L, (List.mem_dlookup_iff c.journal.nodupKeys).mpr hy⟩
  · rintro ⟨L, h⟩
    exact ⟨⟨L, x⟩, (List.mem_dlookup_iff c.journal.nodupKeys).mp h, rfl⟩

lemma World.mem_records : x ∈ w.records ↔ ∃ r ∈ w.names, ∃ L, (w.cells r).record L = some x := by
  simp only [World.records, List.mem_flatMap, Cell.mem_records]

namespace World.Readable

variable (hw : w.Readable)
include hw

/-- A record of the store is the one filed for its lease and resource. -/
lemma record (hx : x ∈ w.records) : Filed x.resource x.leaseId x ∧ x.resource ∈ w.names ∧
    (w.cells x.resource).record x.leaseId = some x := by
  obtain ⟨r, hr, L, hrecord⟩ := World.mem_records.mp hx
  have hfiled := hw.filed r hr L x hrecord
  obtain ⟨rfl, rfl⟩ := And.intro hfiled.leaseId hfiled.resource
  exact ⟨hfiled, hr, hrecord⟩

/-- The resource of a record has no other. -/
lemma unique (hx : x ∈ w.records) {K : LeaseId} {y : FakeRecord}
    (hy : (w.cells x.resource).record K = some y) : K = x.leaseId ∧ y = x := by
  obtain ⟨hfiled, hname, hrecord⟩ := hw.record hx
  have hfiled' := hw.filed _ hname K y hy
  have hmem : y ∈ w.records := World.mem_records.mpr ⟨_, hname, K, hy⟩
  obtain rfl : y = x := List.inj_on_of_nodup_map hw.once hmem hx hfiled'.resource
  exact ⟨hfiled'.leaseId.symm, rfl⟩

end World.Readable

/-- The resources of the records of a cell whose records are filed. -/
lemma map_resource (hfiled : ∀ L x, c.record L = some x → Filed r L x) :
    (c.journal.entries.map Sigma.snd).map (·.resource) =
      List.replicate c.journal.entries.length r := by
  rw [List.eq_replicate_iff]
  refine ⟨by simp, fun r' hr' => ?_⟩
  obtain ⟨x, hx, rfl⟩ := List.mem_map.mp hr'
  obtain ⟨L, hL⟩ := Cell.mem_records.mp hx
  exact (hfiled L x hL).resource

/-- With fewer records in the same places, a journal stays readable. -/
lemma World.Readable.of_fewer (hw : w.Readable) (hnames : w'.names = w.names)
    (hfiled : ∀ r ∈ w.names, ∀ L x, (w'.cells r).record L = some x → Filed r L x)
    (hlength : ∀ r ∈ w.names,
      (w'.cells r).journal.entries.length ≤ (w.cells r).journal.entries.length) :
    w'.Readable := by
  refine ⟨?_, hnames ▸ hfiled⟩
  have hresources : ∀ {u : World} {names : List ResourceId},
      (∀ r ∈ names, ∀ L x, (u.cells r).record L = some x → Filed r L x) →
      (names.flatMap fun r => (u.cells r).journal.entries.map Sigma.snd).map (·.resource) =
        names.flatMap fun r => List.replicate (u.cells r).journal.entries.length r := by
    intro u names h
    rw [List.map_flatMap]
    exact List.flatMap_congr fun r hr => map_resource (h r hr)
  have hsublist : ∀ {names : List ResourceId}, (∀ r ∈ names,
      (w'.cells r).journal.entries.length ≤ (w.cells r).journal.entries.length) →
      (names.flatMap fun r => List.replicate (w'.cells r).journal.entries.length r).Sublist
        (names.flatMap fun r => List.replicate (w.cells r).journal.entries.length r) := by
    intro names h
    induction names with
    | nil => exact .slnil
    | cons r names ih =>
        rw [List.flatMap_cons, List.flatMap_cons]
        exact ((List.replicate_sublist_replicate r).mpr (h r (List.mem_cons_self ..))).append
          (ih fun r hr => h r (List.mem_cons_of_mem _ hr))
  have honce := hw.once
  rw [World.records, hresources hw.filed] at honce
  rw [World.records, hnames, hresources hfiled]
  exact honce.sublist (hsublist hlength)

/-! ## Runs over the store -/

section Runs

variable {xs : List FakeRecord} {outcomes : List RecoveryOutcome}

/-- Which outcomes a list of records may get is said record by record. -/
lemma exists_recoverStaleRecords (hnodup : (xs.map (·.resource)).Nodup)
    (hxs : ∀ x ∈ xs, Filed x.resource x.leaseId x ∧ x.resource ∈ w.names) :
    (∃ w', (recoverStaleRecords (fakeManager owner caps policy) xs).Runs (World.handler F i m) w
        outcomes w') ↔
      List.Forall₂ (fun x outcome => ∃ d, (recoverStaleRecord (fakeManager owner caps policy) x).Runs
        (Cell.handlerAlone F (w.context i m) x.resource) (w.cells x.resource) outcome d)
        xs outcomes := by
  constructor
  · rintro ⟨w', h⟩
    exact ((runs_recoverStaleRecords hnodup hxs).mp h).1.imp fun x outcome h => ⟨_, h⟩
  · intro h
    induction xs generalizing w outcomes with
    | nil =>
        obtain rfl := List.forall₂_nil_left_iff.mp h
        exact ⟨w, rfl, rfl⟩
    | cons x xs ih =>
        obtain ⟨outcome, os, ⟨d, hd⟩, hrest, rfl⟩ := List.forall₂_cons_left_iff.mp h
        obtain ⟨hhead, htail⟩ := List.nodup_cons.mp hnodup
        obtain ⟨hfiled, hname⟩ := hxs x (List.mem_cons_self ..)
        have hsame : ∀ y ∈ xs, (w.setCell x.resource d).cells y.resource = w.cells y.resource :=
          fun y hy => World.setCell_cells_of_ne fun h => hhead (List.mem_map.mpr ⟨y, hy, h⟩)
        obtain ⟨w', hw'⟩ := ih (w := w.setCell x.resource d) htail
          (fun y hy => hxs y (List.mem_cons_of_mem x hy))
          (((List.forall₂_and_left _ _).mpr ⟨hsame, hrest⟩).imp fun y outcome hy => by
            rw [hy.1]
            exact hy.2)
        exact ⟨w', Program.runs_bind.mpr ⟨outcome, _,
          (World.runs_alone (alone_recoverStaleRecord hfiled) hname).mpr ⟨d, hd, rfl⟩,
          Program.runs_bind.mpr ⟨os, w', hw', rfl, rfl⟩⟩⟩

/-- A run of `recoverStale` fails to read the journal, or recovers each of its records. -/
lemma runs_recoverStale (hw : w.Readable) {answer : Except Error (List RecoveryOutcome)}
    (h : (fakeManager owner caps policy).recoverStale.run.Runs (World.handler F i m) w answer w') :
    (∃ error, answer = .error error ∧ F (.engine .journalRecords) ∧ w' = w) ∨
      ∃ outcomes, answer = .ok outcomes ∧
        (recoverStaleRecords (fakeManager owner caps policy) w.records).Runs
          (World.handler F i m) w outcomes w' := by
  unfold Manager.recoverStale at h
  rcases Fallible.runs_bind.mp h with ⟨records, u, hread, hk⟩ | ⟨error, hread, rfl⟩
  · obtain ⟨_, _, ⟨fate, -, hexec⟩, ha, rfl⟩ := hread
    cases fate <;> simp only [World.exec, ManagerOp.target, EngineOp.target, World.execGlobal,
      World.readRecords, if_pos hw.once, Option.some.injEq, Prod.mk.injEq] at hexec <;>
      obtain ⟨rfl, rfl⟩ := hexec
    · obtain rfl := Except.ok.inj ha
      obtain ⟨outcomes, v, hrun, rfl, rfl⟩ := Program.runs_bind.mp hk
      exact .inr ⟨outcomes, rfl, hrun⟩
    · exact absurd ha (by simp)
    · exact absurd ha (by simp)
  · obtain ⟨_, _, ⟨fate, hF, hexec⟩, ha, rfl⟩ := hread
    cases fate <;> simp only [World.exec, ManagerOp.target, EngineOp.target, World.execGlobal,
      World.readRecords, if_pos hw.once, Option.some.injEq, Prod.mk.injEq] at hexec <;>
      obtain ⟨rfl, rfl⟩ := hexec
    · exact absurd ha (by simp)
    · exact .inl ⟨_, rfl, by simpa using hF, rfl⟩
    · exact .inl ⟨_, rfl, by simpa using hF, rfl⟩

/-- Recovering the records of the store is a run of `recoverStale`. -/
lemma recoverStale_runs (hw : w.Readable)
    (h : (recoverStaleRecords (fakeManager owner caps policy) w.records).Runs
      (World.handler F i m) w outcomes w') :
    (fakeManager owner caps policy).recoverStale.run.Runs (World.handler F i m) w (.ok outcomes)
      w' := by
  refine Fallible.runs_bind.mpr (.inl ⟨w.records, w, ⟨.ok w.records, w, ⟨.proceed, .inl rfl, ?_⟩,
    rfl, rfl⟩, Program.runs_bind.mpr ⟨outcomes, w', h, rfl, rfl⟩⟩)
  simp only [World.exec, ManagerOp.target, EngineOp.target, World.execGlobal, World.readRecords,
    if_pos hw.once]

end Runs

/-! ## The specification -/

/-- A native effect that needs no further recovery. -/
def RecoveryOutcome.Settles : RecoveryOutcome → Prop
  | .restored _ _ => True
  | .journalCleared _ _ => True
  | .gone _ _ => True
  | .replaced _ _ => True
  | _ => False

/-- What a run of `recoverStale` over a readable journal leaves. -/
structure StaleRecovered (owner : String) (w : World) (outcomes : List RecoveryOutcome)
    (w' : World) : Prop where
  /-- One outcome for each record, in the order of the store. -/
  each : List.Forall₂ (fun x outcome => RecordRecovered owner x (w.cells x.resource) outcome
    (w'.cells x.resource)) w.records outcomes
  others : ∀ r, r ∉ w.records.map (·.resource) → w'.cells r = w.cells r
  readable : w'.Readable

/-- What a second run, without faults, leaves where the first one ended. -/
structure RecoveredAgain (w : World) (outcomes : List RecoveryOutcome) (w' : World)
    (again : List RecoveryOutcome) (w'' : World) : Prop where
  /-- What was settled stays as it was. -/
  settled : ∀ x outcome, (x, outcome) ∈ w.records.zip outcomes → outcome.Settles →
    w''.cells x.resource = w'.cells x.resource
  /-- So does a native state that is the base already, whatever became of its record. -/
  based : ∀ x ∈ w.records, (w'.cells x.resource).state = some x.before.data.state →
    SameNative (w'.cells x.resource) (w''.cells x.resource)
  /-- Every conflict is found again. -/
  refused : ∀ x outcome, (x, outcome) ∈ w.records.zip outcomes → outcome.Refuses x →
    (x, outcome) ∈ w'.records.zip again

lemma exists_mem_zip {α β : Type} {R : α → β → Prop} {as : List α} {bs : List β} {a : α}
    (h : List.Forall₂ R as bs) (ha : a ∈ as) : ∃ b, (a, b) ∈ as.zip bs ∧ R a b := by
  induction h with
  | nil => exact absurd ha (by simp)
  | @cons x y xs ys hxy hrest ih =>
      rcases List.mem_cons.mp ha with rfl | ha
      · exact ⟨y, by simp, hxy⟩
      · obtain ⟨b, hb, hR⟩ := ih ha
        exact ⟨b, by simp [hb], hR⟩

section Specification

variable {outcomes again : List RecoveryOutcome} {w'' : World}

/-- Each record of the store takes one of the ways of `recoverStaleRecord`. -/
lemma recoversStale_each (hw : w.Readable)
    (h : (recoverStaleRecords (fakeManager owner caps policy) w.records).Runs
      (World.handler F i m) w outcomes w') :
    List.Forall₂ (fun x outcome => RecoversStale F owner x (w.cells x.resource) outcome
      (w'.cells x.resource)) w.records outcomes := by
  have heach := ((runs_recoverStaleRecords hw.once fun x hx =>
    ⟨(hw.record hx).1, (hw.record hx).2.1⟩).mp h).1
  refine ((List.forall₂_and_left _ _).mpr
    ⟨fun x hx => (hw.record hx).1, heach⟩).imp fun x outcome hx => ?_
  exact runs_recoverStaleRecord hx.1 hx.2

lemma staleRecovered (hw : w.Readable)
    (h : (recoverStaleRecords (fakeManager owner caps policy) w.records).Runs
      (World.handler F i m) w outcomes w') : StaleRecovered owner w outcomes w' := by
  obtain ⟨-, hothers, hw'⟩ := (runs_recoverStaleRecords hw.once fun x hx =>
    ⟨(hw.record hx).1, (hw.record hx).2.1⟩).mp h
  have hstale := recoversStale_each hw h
  have hnames : w'.names = w.names := by rw [hw']
  have heach : List.Forall₂ (fun x outcome => RecordRecovered owner x (w.cells x.resource) outcome
      (w'.cells x.resource)) w.records outcomes := by
    refine ((List.forall₂_and_left _ _).mpr
      ⟨fun x hx => hw.record hx, hstale⟩).imp fun x outcome hx => ?_
    exact hx.2.recordRecovered hx.1.1 hx.1.2.2
  refine ⟨heach, hothers, hw.of_fewer hnames (fun r hr L y hy => ?_) fun r hr => ?_⟩
  · by_cases hmem : r ∈ w.records.map (·.resource)
    · obtain ⟨x, hx, rfl⟩ := List.mem_map.mp hmem
      obtain ⟨outcome, -, hrecovered⟩ := exists_mem_zip heach hx
      by_cases hL : L = x.leaseId
      · subst hL
        exact (hrecovered.retained y hy).2
      · rw [hrecovered.others L hL] at hy
        exact absurd (hw.unique hx hy).1 hL
    · rw [hothers r hmem] at hy
      exact hw.filed r hr L y hy
  · by_cases hmem : r ∈ w.records.map (·.resource)
    · obtain ⟨x, hx, rfl⟩ := List.mem_map.mp hmem
      obtain ⟨outcome, -, hx'⟩ := exists_mem_zip hstale hx
      exact hx'.length_le (hw.record hx).2.2
    · rw [hothers r hmem]

/-- The record of a settled resource is gone, and with it every record of the resource. -/
lemma StaleRecovered.no_record (hw : w.Readable) (h : StaleRecovered owner w outcomes w')
    {outcome : RecoveryOutcome} (hx : (x, outcome) ∈ w.records.zip outcomes)
    (hs : outcome.Settles) : x.resource ∉ w'.records.map (·.resource) := by
  have hmem : x ∈ w.records := (List.of_mem_zip hx).1
  have hrecovered := List.forall₂_zip h.each hx
  have hnone : (w'.cells x.resource).record x.leaseId = none := by
    have htrue := hrecovered.truthful
    cases outcome with
    | restored resource lease => exact htrue.2.2.2
    | journalCleared resource lease => exact htrue.2.2.2
    | gone resource lease => exact htrue.2.2.2
    | replaced resource lease => exact htrue.2.2.2
    | _ => exact hs.elim
  intro hr
  obtain ⟨y, hy, hyr⟩ := List.mem_map.mp hr
  obtain ⟨hfiled, -, hrecord⟩ := h.readable.record hy
  rw [hyr] at hrecord
  by_cases hL : y.leaseId = x.leaseId
  · rw [hL, hnone] at hrecord
    exact absurd hrecord (by simp)
  · rw [hrecovered.others _ hL] at hrecord
    exact hL (hw.unique hmem hrecord).1

lemma recoveredAgain (hw : w.Readable)
    (h : (recoverStaleRecords (fakeManager owner caps policy) w.records).Runs
      (World.handler F i m) w outcomes w') {i' : SessionId} {m' : ManagerId}
    (h' : (recoverStaleRecords (fakeManager owner caps policy) w'.records).Runs
      (World.handler (fun _ => False) i' m') w' again w'') :
    RecoveredAgain w outcomes w' again w'' := by
  have hfirst := staleRecovered hw h
  have hsecond := staleRecovered hfirst.readable h'
  refine ⟨fun x outcome hx hs => ?_, fun x hx hbase => ?_, fun x outcome hx hrefuses => ?_⟩
  · exact hsecond.others _ (hfirst.no_record hw hx hs)
  · by_cases hmem : x.resource ∈ w'.records.map (·.resource)
    · obtain ⟨y, hy, hyr⟩ := List.mem_map.mp hmem
      obtain ⟨outcome, -, hrecovered⟩ := exists_mem_zip hsecond.each hy
      obtain ⟨outcome', -, hrecovered'⟩ := exists_mem_zip hfirst.each hx
      have hrecord := (hfirst.readable.record hy).2.2
      have hbefore : y.before = x.before := by
        rw [hyr] at hrecord
        by_cases hL : y.leaseId = x.leaseId
        · exact (hrecovered'.retained y (hL ▸ hrecord)).1
        · rw [hrecovered'.others _ hL] at hrecord
          exact absurd (hw.unique hx hrecord).1 hL
      rcases hrecovered.mutation with hsame | ⟨p, now, -, hp, hne, -⟩
      · exact hyr ▸ hsame
      · refine absurd ?_ hne
        rw [hyr] at hp
        rw [(Cell.snapshot_eq_some hp).2.1, Option.some.injEq] at hbase
        rw [hbase, hbefore]
    · rw [hsecond.others _ hmem]
      exact .refl _
  · have hmem : x ∈ w.records := (List.of_mem_zip hx).1
    have hway := List.forall₂_zip (recoversStale_each hw h) hx
    have hcell : w'.cells x.resource = w.cells x.resource := by
      have htrue := (List.forall₂_zip hfirst.each hx).truthful
      rcases hrefuses with rfl | rfl <;> exact htrue.2.2.1
    have hmem' : x ∈ w'.records := by
      obtain ⟨-, hname, hrecord⟩ := hw.record hmem
      refine World.mem_records.mpr ⟨_, ?_, x.leaseId, by rw [hcell]; exact hrecord⟩
      obtain ⟨-, -, hw'⟩ := (runs_recoverStaleRecords hw.once fun x hx =>
        ⟨(hw.record hx).1, (hw.record hx).2.1⟩).mp h
      rw [hw']
      exact hname
    obtain ⟨outcome', hx', hway'⟩ := exists_mem_zip (recoversStale_each hfirst.readable h') hmem'
    rw [hcell] at hway'
    rwa [hway.again hrefuses hway'] at hx'

end Specification

/-- Over a readable journal and any native state, with arbitrary failures, `recoverStale` returns
one true outcome for each record.  Which outcomes are possible is said record by record, and a
second run without failures touches nothing that is settled and repeats every conflict. -/
theorem recoverStale_spec (F : Faults) (owner : String) (caps : Capabilities)
    (policy : ConflictPolicy) (i : SessionId) (m : ManagerId) {w : World} (hw : w.Readable) :
    (∃ outcomes w', (fakeManager owner caps policy).recoverStale.run.Runs (World.handler F i m) w
        (.ok outcomes) w') ∧
      (∀ outcomes, (∃ w', (fakeManager owner caps policy).recoverStale.run.Runs
          (World.handler F i m) w (.ok outcomes) w') ↔
        List.Forall₂ (fun x outcome => ∃ d,
          (recoverStaleRecord (fakeManager owner caps policy) x).Runs
            (Cell.handlerAlone F (w.context i m) x.resource) (w.cells x.resource) outcome d)
          w.records outcomes) ∧
      ∀ answer w', (fakeManager owner caps policy).recoverStale.run.Runs (World.handler F i m) w
          answer w' →
        (∃ error, answer = .error error ∧ F (.engine .journalRecords) ∧ w' = w) ∨
          ∃ outcomes, answer = .ok outcomes ∧ StaleRecovered owner w outcomes w' ∧
            ∀ i' m' answer' w'', (fakeManager owner caps policy).recoverStale.run.Runs
                (World.handler (fun _ => False) i' m') w' answer' w'' →
              ∃ again, answer' = .ok again ∧ RecoveredAgain w outcomes w' again w'' := by
  have hxs : ∀ x ∈ w.records, Filed x.resource x.leaseId x ∧ x.resource ∈ w.names :=
    fun x hx => ⟨(hw.record hx).1, (hw.record hx).2.1⟩
  have hproduct : ∀ outcomes, (∃ w', (fakeManager owner caps policy).recoverStale.run.Runs
      (World.handler F i m) w (.ok outcomes) w') ↔ List.Forall₂ (fun x outcome => ∃ d,
        (recoverStaleRecord (fakeManager owner caps policy) x).Runs
          (Cell.handlerAlone F (w.context i m) x.resource) (w.cells x.resource) outcome d)
        w.records outcomes := by
    refine fun outcomes => Iff.trans ?_ (exists_recoverStaleRecords hw.once hxs)
    refine exists_congr fun w' => ⟨fun h => ?_, recoverStale_runs hw⟩
    rcases runs_recoverStale hw h with ⟨error, he, -⟩ | ⟨outcomes', he, hrun⟩
    · exact absurd he (by simp)
    · obtain rfl := Except.ok.inj he
      exact hrun
  refine ⟨?_, hproduct, fun answer w' h => ?_⟩
  · -- Every record has a run of its own.
    suffices ∃ outcomes, List.Forall₂ (fun x outcome => ∃ d,
        (recoverStaleRecord (fakeManager owner caps policy) x).Runs
          (Cell.handlerAlone F (w.context i m) x.resource) (w.cells x.resource) outcome d)
        w.records outcomes from this.imp fun outcomes h => (hproduct outcomes).mpr h
    generalize w.records = xs at hxs
    induction xs with
    | nil => exact ⟨[], .nil⟩
    | cons x xs ih =>
        obtain ⟨outcomes, hrest⟩ := ih fun y hy => hxs y (List.mem_cons_of_mem x hy)
        obtain ⟨outcome, d, hd⟩ :=
          (alone_recoverStaleRecord (hxs x (List.mem_cons_self ..)).1).runs (w.cells x.resource)
        exact ⟨outcome :: outcomes, .cons ⟨d, hd⟩ hrest⟩
  · refine (runs_recoverStale hw h).imp_right ?_
    rintro ⟨outcomes, rfl, hrun⟩
    refine ⟨outcomes, rfl, staleRecovered hw hrun, fun i' m' answer' w'' h' => ?_⟩
    rcases runs_recoverStale (staleRecovered hw hrun).readable h' with
      ⟨error, -, hfalse, -⟩ | ⟨again, rfl, hrun'⟩
    · exact hfalse.elim
    · exact ⟨again, rfl, recoveredAgain hw hrun hrun'⟩

/-- The record a crashed process left of an overlay over the empty state. -/
def leftover (r : ResourceId) : FakeRecord where
  owner := "app"
  leaseId := 0
  resource := r
  backend := .fake
  identity := ⟨.fake, r, ⟨0⟩⟩
  phase := .applied
  before := ⟨.fake, r, ⟨.empty, 0⟩⟩
  desired := ⟨[], [], [], some true⟩
  applied := some ⟨.fake, r, ⟨.configured [] [] [] (some true), 1⟩⟩

/-- A world where one overlay of `leftover` is still in effect and another program wrote over the
other. -/
def leftoverWorld : World :=
  { World.pristine (.pair .loopback .ethernet) .empty with
    cells := fun r => {
      state := some (if r = .loopback then .configured [] [] [] (some true)
        else .configured [.v4 134744072] [] [] none)
      generation := if r = .loopback then 1 else 2
      journal := AList.singleton 0 (leftover r) }
    names := [.loopback, .ethernet] }

/-- The journal of `leftoverWorld` is recovered, whatever fails; the state that another program wrote
stays. -/
theorem recoverStale_spec_leftover : ∃ outcomes w',
    (fakeManager "app" (.full .fake) .cooperative).recoverStale.run.Runs
      (World.handler (fun _ => True) 1 0) leftoverWorld (.ok outcomes) w' ∧
      StaleRecovered "app" leftoverWorld outcomes w' ∧ outcomes.length = 2 ∧
      (w'.cells .ethernet).state = some (.configured [.v4 134744072] [] [] none) := by
  have hw : leftoverWorld.Readable := by
    refine ⟨by decide +kernel, fun r hr L x hx => ?_⟩
    have hentry : (⟨L, x⟩ : (_ : LeaseId) × FakeRecord) ∈ [⟨0, leftover r⟩] :=
      (List.mem_dlookup_iff (List.nodupKeys_singleton _)).mp hx
    cases List.mem_singleton.mp hentry
    exact ⟨rfl, rfl, ⟨rfl, rfl⟩, ⟨rfl, rfl⟩,
      fun p hp => Option.some.inj hp ▸ ⟨rfl, rfl⟩, fun _ => rfl⟩
  obtain ⟨⟨outcomes, w', h⟩, -, hspec⟩ :=
    recoverStale_spec (fun _ => True) "app" (.full .fake) .cooperative 1 0 hw
  rcases hspec _ _ h with ⟨error, he, -⟩ | ⟨outcomes', he, hrecovered, -⟩
  · exact absurd he (by simp)
  · obtain rfl := Except.ok.inj he
    have heach : List.Forall₂ (fun x outcome => RecordRecovered "app" x
        (leftoverWorld.cells x.resource) outcome (w'.cells x.resource))
        [leftover .loopback, leftover .ethernet] outcomes := hrecovered.each
    refine ⟨outcomes, w', h, hrecovered, heach.length_eq.symm, ?_⟩
    obtain ⟨_, _, -, hrest, -⟩ := List.forall₂_cons_left_iff.mp heach
    obtain ⟨_, _, hethernet, -⟩ := List.forall₂_cons_left_iff.mp hrest
    rcases hethernet.mutation with hsame | ⟨p, now, happlied, hsnapshot, -⟩
    · exact hsame.state
    · rw [← Option.some.inj happlied] at hsnapshot
      exact absurd hsnapshot (by decide)

end Osdns
